import Keyspace.Name.Basic
import Keyspace.Proofs.Name.Levels
import Keyspace.Proofs.Name.Resolution

namespace Keyspace.Name

open Piece

/-- A raw segment that can stand below a root. -/
def IsLevel (segment : String) : Prop :=
  segment ≠ "" ∧ segment ≠ "." ∧ segment ≠ ".."

/-- The segments of a canonical name: a root that is not relative, and levels below it. -/
structure IsCanonical (segments : List String) : Prop where
  ne_nil : segments ≠ []
  root : ∀ root ∈ segments.head?, root ≠ "." ∧ root ≠ ".."
  below : ∀ segment ∈ segments.tail, IsLevel segment

/-- The escaped segments with a separator between any two, or a lone one for the bare root. -/
def render (segments : List String) : String :=
  if segments = [""] then "/" else "/".intercalate (segments.map escapeText)

def ofSegments (segments : List String) : Name :=
  ⟨render segments, segments⟩

theorem isCanonical_cons {root : String} {below : List String} :
    IsCanonical (root :: below) ↔
      (root ≠ "." ∧ root ≠ "..") ∧ ∀ segment ∈ below, IsLevel segment := by
  constructor
  · intro h
    exact ⟨h.root root rfl, h.below⟩
  · intro h
    obtain ⟨hroot, hbelow⟩ := h
    refine ⟨List.cons_ne_nil _ _, ?_, hbelow⟩
    intro first hfirst
    cases hfirst
    exact hroot

theorem IsCanonical.eq_cons {segments : List String} (h : IsCanonical segments) :
    ∃ root below, segments = root :: below := by
  cases segments with
  | nil => exact absurd rfl h.ne_nil
  | cons root below => exact ⟨root, below, rfl⟩

theorem IsCanonical.append {segments others : List String} (h : IsCanonical segments)
    (hothers : ∀ segment ∈ others, IsLevel segment) : IsCanonical (segments ++ others) := by
  obtain ⟨root, below, rfl⟩ := h.eq_cons
  rw [isCanonical_cons] at h
  rw [List.cons_append, isCanonical_cons]
  refine ⟨h.1, ?_⟩
  intro segment hsegment
  rcases List.mem_append.1 hsegment with hbelow | hother
  · exact h.2 segment hbelow
  · exact hothers segment hother

theorem ofList_eq_self_iff {raw : List Char} : String.ofList raw = "." ↔ raw = self := by
  rw [← String.toList_inj, String.toList_ofList]
  rfl

theorem ofList_eq_parent_iff {raw : List Char} : String.ofList raw = ".." ↔ raw = parent := by
  rw [← String.toList_inj, String.toList_ofList]
  rfl

theorem isLevel_ofList_iff {raw : List Char} :
    IsLevel (String.ofList raw) ↔ raw ≠ [] ∧ raw ≠ self ∧ raw ≠ parent := by
  rw [IsLevel, Ne, Ne, Ne, String.ofList_eq_empty_iff, ofList_eq_self_iff, ofList_eq_parent_iff]

theorem IsLevel.toList {segment : String} (h : IsLevel segment) :
    segment.toList ≠ [] ∧ segment.toList ≠ self ∧ segment.toList ≠ parent := by
  rwa [← isLevel_ofList_iff, String.ofList_toList]

theorem toList_escapeText (raw : String) : (escapeText raw).toList = escapeSegment raw.toList := by
  rw [escapeText, String.toList_ofList]

theorem toList_intercalate_escapeText (root : String) (below : List String) :
    ("/".intercalate ((root :: below).map escapeText)).toList =
      spell root.toList (below.map String.toList) := by
  rw [String.toList_intercalate]
  induction below generalizing root with
  | nil =>
    simp only [List.map_cons, List.map_nil, List.intercalate_singleton, toList_escapeText]
    rw [spell_nil]
  | cons segment below ih =>
    have htail := ih segment
    simp only [List.map_cons, toList_escapeText] at htail ⊢
    rw [List.intercalate_cons_cons, htail, spell_cons, List.append_assoc]
    rfl

theorem render_cons {root : String} {below : List String} (h : root :: below ≠ [""]) :
    render (root :: below) = String.ofList (spell root.toList (below.map String.toList)) := by
  rw [render, if_neg h, ← toList_intercalate_escapeText, String.ofList_toList]

theorem spell_ne_nil_of_cons {root : String} {below : List String} (h : root :: below ≠ [""]) :
    spell root.toList (below.map String.toList) ≠ [] := by
  intro hnil
  obtain ⟨hroot, hbelow⟩ := spell_eq_nil_iff.1 hnil
  apply h
  rw [List.map_eq_nil_iff.1 hbelow, String.toList_eq_nil_iff.1 hroot]

theorem exists_spell_of_ne_empty {text : String} (hne : text ≠ "")
    (h : wellEscaped text.toList = true) :
    ∃ first more, spell first more ≠ [] ∧ text = String.ofList (spell first more) := by
  obtain ⟨first, more, hspell⟩ := exists_spell h
  refine ⟨first, more, ?_, ?_⟩
  · rw [← hspell]
    exact fun hnil => hne (String.toList_eq_nil_iff.1 hnil)
  · rw [← hspell, String.ofList_toList]

theorem splitRoot_spell {first : List Char} {more : List (List Char)}
    (hne : spell first more ≠ []) :
    splitRoot (String.ofList (spell first more)) =
      (if first = [] then none else some (escapeSegment first),
        (more.filter (· ≠ [])).map escapeSegment) := by
  have hlevels : (Levels.ofText (String.ofList (spell first more))).map String.toList =
      ((first :: more).filter (· ≠ [])).map escapeSegment := by
    rw [Levels.ofText_spell, List.map_map]
    congr 1
    funext raw
    exact String.toList_ofList
  simp only [splitRoot, hlevels, String.toList_ofList, head_spell_iff]
  by_cases hfirst : first = []
  · have hmore : more ≠ [] := fun h => hne (spell_eq_nil_iff.2 ⟨hfirst, h⟩)
    simp [hfirst, hmore]
  · simp [hfirst]

theorem toList_map_ofList (pieces : List (List Char)) :
    (pieces.map String.ofList).map String.toList = pieces := by
  simp [Function.comp_def]

theorem assemble_escapeSegment (first : List Char) (below : List (List Char)) :
    String.ofList (assemble (if first = [] then none else some (escapeSegment first))
        (below.map escapeSegment)) =
      render (String.ofList first :: below.map String.ofList) := by
  by_cases hbare : String.ofList first :: below.map String.ofList = [""]
  · obtain ⟨hfirst, hbelow⟩ := List.cons.inj hbare
    rw [hbare, String.ofList_eq_empty_iff.1 hfirst, List.map_eq_nil_iff.1 hbelow]
    rfl
  · rw [render_cons hbare, String.toList_ofList, toList_map_ofList]
    congr 1
    by_cases hfirst : first = []
    · subst hfirst
      have hbelow : below ≠ [] := by
        rintro rfl
        exact hbare rfl
      simp [assemble, spell, escapeSegment, hbelow, List.flatMap_map]
    · simp [assemble, spell, hfirst, List.flatMap_map]

theorem ofLevels_escapeSegment (first : List Char) (below : List (List Char)) :
    ofLevels (if first = [] then none else some (escapeSegment first))
        (below.map escapeSegment) =
      ofSegments (String.ofList first :: below.map String.ofList) := by
  have hroot : (if first = [] then none else some (escapeSegment first)).elim "" unescapeText =
      String.ofList first := by
    by_cases hfirst : first = []
    · subst hfirst
      rfl
    · simp [hfirst, unescapeText_escapeSegment]
  rw [ofLevels, assemble_escapeSegment, hroot, map_unescapeText_escapeSegment]
  rfl

/-- The first raw piece of a spelling is the root, and the others are resolved below it. -/
theorem parse_spell {first : List Char} {more : List (List Char)} (hne : spell first more ≠ []) :
    parse (String.ofList (spell first more)) =
      if first = self ∨ first = parent then
        .error (.invalidName (String.ofList (spell first more)) .relativeRoot)
      else
        .ok (ofSegments
          (String.ofList first :: (resolve (more.filter (· ≠ []))).map String.ofList)) := by
  have hempty : String.ofList (spell first more) ≠ "" :=
    fun h => hne (String.ofList_eq_empty_iff.1 h)
  have hroot (relative : Piece) (hrelative : relative ≠ [])
      (hiff : escapeSegment first = relative ↔ first = relative) :
      (if first = [] then none else some (escapeSegment first)) = some relative ↔
        first = relative := by
    by_cases hfirst : first = []
    · simp [hfirst, hrelative.symm]
    · simp [hfirst, hiff]
  simp only [parse, hempty, if_false, String.toList_ofList, wellEscaped_spell,
    Bool.true_eq_false, splitRoot_spell hne, hroot self (by decide) escapeSegment_eq_self_iff,
    hroot parent (by decide) escapeSegment_eq_parent_iff, resolve_escapeSegment,
    ofLevels_escapeSegment]

end Keyspace.Name
