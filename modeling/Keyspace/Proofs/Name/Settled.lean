import Keyspace.Proofs.Name.Composition
import Keyspace.Proofs.Name.Hierarchy
import Mathlib.Data.List.Flatten

namespace Keyspace

/-- An escaped text in which every separator stands behind an escape. -/
inductive Undivided : List Char → Prop
  | nil : Undivided []
  | plain {c : Char} {rest : List Char} (hc : c ≠ separator ∧ c ≠ escape)
      (hrest : Undivided rest) : Undivided (c :: rest)
  | pair {c : Char} {rest : List Char} (hc : c = separator ∨ c = escape)
      (hrest : Undivided rest) : Undivided (escape :: c :: rest)

theorem isReserved_eq_false_iff {c : Char} :
    isReserved c = false ↔ c ≠ separator ∧ c ≠ escape := by
  simp [isReserved]

theorem undivided_escapeSegment (raw : List Char) : Undivided (escapeSegment raw) := by
  induction raw with
  | nil => exact .nil
  | cons c raw ih =>
    cases hc : isReserved c with
    | true =>
      rw [escapeSegment_reserved hc]
      exact .pair (isReserved_iff.1 hc) ih
    | false =>
      rw [escapeSegment_plain hc]
      exact .plain (isReserved_eq_false_iff.1 hc) ih

theorem Undivided.exists_escapeSegment {text : List Char} (h : Undivided text) :
    ∃ raw, text = escapeSegment raw := by
  induction h with
  | nil => exact ⟨[], rfl⟩
  | @plain c rest hc _ ih =>
    obtain ⟨raw, rfl⟩ := ih
    exact ⟨c :: raw, (escapeSegment_plain (isReserved_eq_false_iff.2 hc) raw).symm⟩
  | @pair c rest hc _ ih =>
    obtain ⟨raw, rfl⟩ := ih
    exact ⟨c :: raw, (escapeSegment_reserved (isReserved_iff.2 hc) raw).symm⟩

namespace Piece

def ofSegment (segment : String) : Piece :=
  escapeSegment segment.toList

/-- The piece is the text of a level of its own. -/
structure IsLevelText (piece : Piece) : Prop where
  undivided : Undivided piece
  ne_nil : piece ≠ []
  ne_self : piece ≠ self
  ne_parent : piece ≠ parent

theorem isLevelText_ofSegment_iff {segment : String} :
    IsLevelText (ofSegment segment) ↔ Name.IsLevel segment := by
  rw [← String.ofList_toList (s := segment), Name.isLevel_ofList_iff, ofSegment,
    String.toList_ofList]
  constructor
  · intro h
    refine ⟨fun hnil => h.ne_nil (escapeSegment_eq_nil_iff.2 hnil),
      fun hself => h.ne_self (escapeSegment_eq_self_iff.2 hself),
      fun hparent => h.ne_parent (escapeSegment_eq_parent_iff.2 hparent)⟩
  · rintro ⟨hnil, hself, hparent⟩
    exact ⟨undivided_escapeSegment _, fun h => hnil (escapeSegment_eq_nil_iff.1 h),
      fun h => hself (escapeSegment_eq_self_iff.1 h),
      fun h => hparent (escapeSegment_eq_parent_iff.1 h)⟩

theorem exists_segments {pieces : List Piece} (h : ∀ piece ∈ pieces, piece.IsLevelText) :
    ∃ segments : List String, pieces = segments.map ofSegment ∧
      ∀ segment ∈ segments, Name.IsLevel segment := by
  induction pieces with
  | nil => exact ⟨[], rfl, fun _ hnil => absurd hnil List.not_mem_nil⟩
  | cons piece pieces ih =>
    obtain ⟨hpiece, hrest⟩ := List.forall_mem_cons.1 h
    obtain ⟨raw, rfl⟩ := hpiece.undivided.exists_escapeSegment
    obtain ⟨segments, rfl, hsegments⟩ := ih hrest
    have hraw : escapeSegment raw = ofSegment (String.ofList raw) := by
      rw [ofSegment, String.toList_ofList]
    rw [hraw] at hpiece ⊢
    exact ⟨String.ofList raw :: segments, rfl,
      List.forall_mem_cons.2 ⟨isLevelText_ofSegment_iff.1 hpiece, hsegments⟩⟩

theorem isLevelText_of_segments {segments : List String}
    (h : ∀ segment ∈ segments, Name.IsLevel segment) :
    ∀ piece ∈ segments.map ofSegment, IsLevelText piece := by
  intro piece hpiece
  obtain ⟨segment, hsegment, rfl⟩ := List.mem_map.1 hpiece
  exact isLevelText_ofSegment_iff.2 (h segment hsegment)

theorem intercalate_ofSegment (root : String) (below : List String) :
    [separator].intercalate ((root :: below).map ofSegment) =
      spell root.toList (below.map String.toList) := by
  have hrow := Name.toList_intercalate_escapeText root below
  have hescape : String.toList ∘ escapeText = ofSegment := funext Name.toList_escapeText
  rw [String.toList_intercalate, List.map_map, hescape] at hrow
  exact hrow

theorem settle_sublist (kept : List Piece) (piece : Piece) :
    (settle kept piece).Sublist (kept ++ [piece]) := by
  unfold settle
  split
  · exact List.sublist_append_left kept [piece]
  · split
    · exact (List.dropLast_sublist kept).trans (List.sublist_append_left kept [piece])
    · exact List.Sublist.refl _

theorem foldl_settle_sublist (kept below : List Piece) :
    (below.foldl settle kept).Sublist (kept ++ below) := by
  induction below generalizing kept with
  | nil => exact List.sublist_append_left kept []
  | cons piece below ih =>
    have hstep := (settle_sublist kept piece).append (List.Sublist.refl below)
    rw [List.append_assoc] at hstep
    exact (ih (settle kept piece)).trans hstep

theorem spell_sublist (first : List Char) {more others : List (List Char)}
    (h : more.Sublist others) : (spell first more).Sublist (spell first others) :=
  (List.Sublist.refl _).append (h.flatMap _)

end Piece

namespace Name

open Piece

variable {text : String} {name : Name}

/-- A lone separator, or levels with one separator between any two and at most one in front. -/
inductive Settled : List Char → Prop
  | bare : Settled [separator]
  | rooted {pieces : List Piece} (hne : pieces ≠ []) (h : ∀ piece ∈ pieces, piece.IsLevelText) :
      Settled ([separator].intercalate pieces)
  | cascading {pieces : List Piece} (hne : pieces ≠ [])
      (h : ∀ piece ∈ pieces, piece.IsLevelText) :
      Settled (separator :: [separator].intercalate pieces)

theorem eq_render_of_pieces {root : String} {below : List String} (hroot : IsLevel root)
    (h : text.toList = [separator].intercalate ((root :: below).map ofSegment)) :
    text = render (root :: below) := by
  have hne : root :: below ≠ [""] := fun hbare => hroot.1 (List.cons.inj hbare).1
  rw [intercalate_ofSegment] at h
  rw [render_cons hne, ← h, String.ofList_toList]

theorem Settled.exists_render (h : Settled text.toList) :
    ∃ segments, IsCanonical segments ∧ text = render segments := by
  generalize htext : text.toList = chars at h
  cases h with
  | bare =>
    have hbare : text = "/" := String.toList_inj.1 htext
    refine ⟨[""], isCanonical_cons.2 ⟨by decide, ?_⟩, hbare⟩
    intro segment hnil
    exact absurd hnil List.not_mem_nil
  | rooted hne h =>
    obtain ⟨segments, rfl, hlevels⟩ := exists_segments h
    cases segments with
    | nil => exact absurd rfl hne
    | cons root below =>
      obtain ⟨hroot, hbelow⟩ := List.forall_mem_cons.1 hlevels
      exact ⟨root :: below, isCanonical_cons.2 ⟨hroot.2, hbelow⟩, eq_render_of_pieces hroot htext⟩
  | cascading hne h =>
    obtain ⟨segments, rfl, hlevels⟩ := exists_segments h
    cases segments with
    | nil => exact absurd rfl hne
    | cons first below =>
      refine ⟨"" :: first :: below, isCanonical_cons.2 ⟨by decide, hlevels⟩, ?_⟩
      rw [intercalate_ofSegment] at htext
      rw [render_cons (by simp), List.map_cons, String.toList_empty, spell_cons]
      rw [← String.toList_inj, htext, String.toList_ofList]
      rfl

theorem settled_render {segments : List String} (h : IsCanonical segments) :
    Settled (render segments).toList := by
  by_cases hbare : segments = [""]
  · rw [hbare]
    exact .bare
  obtain ⟨root, below, rfl⟩ := h.eq_cons
  obtain ⟨hrelative, hbelow⟩ := isCanonical_cons.1 h
  rw [render_cons hbare, String.toList_ofList]
  by_cases hroot : root = ""
  · subst hroot
    cases below with
    | nil => exact absurd rfl hbare
    | cons first below =>
      rw [String.toList_empty, List.map_cons, spell_cons, ← intercalate_ofSegment]
      exact .cascading (List.cons_ne_nil _ _) (isLevelText_of_segments hbelow)
  · rw [← intercalate_ofSegment]
    have hlevels := List.forall_mem_cons.2 ⟨⟨hroot, hrelative⟩, hbelow⟩
    exact .rooted (List.cons_ne_nil _ _) (isLevelText_of_segments hlevels)

/-- Reading leaves a text as it is exactly when it already is the text of a name. -/
theorem escaped_eq_iff_settled (h : Name.parse text = .ok name) :
    name.escaped = text ↔ Settled text.toList := by
  constructor
  · intro hsame
    obtain ⟨hcanonical, hsegments⟩ := parse_isCanonical h
    rw [← hsame, hsegments]
    exact settled_render hcanonical
  · intro hsettled
    obtain ⟨segments, hcanonical, rfl⟩ := hsettled.exists_render
    rw [parse_render hcanonical] at h
    rw [← Except.ok.inj h]
    rfl

/-- What reading makes of a text is the text with some of its characters left out. -/
theorem escaped_sublist (h : Name.parse text = .ok name) :
    name.escaped.toList.Sublist text.toList := by
  obtain ⟨first, more, hne, rfl, -, rfl⟩ := spell_of_parse_eq_ok h
  generalize hkept : (more.filter (· ≠ [])).foldl settle [] = kept
  have hmore : kept.Sublist more := by
    have hfollowed := foldl_settle_sublist [] (more.filter (· ≠ []))
    rw [hkept, List.nil_append] at hfollowed
    exact hfollowed.trans List.filter_sublist
  rw [String.toList_ofList]
  by_cases hbare : String.ofList first :: kept.map String.ofList = [""]
  · have hfirst : first = [] := String.ofList_eq_empty_iff.1 (List.cons.inj hbare).1
    subst hfirst
    have hhead := head_spell_iff.2 ⟨rfl, fun hnil => hne (spell_eq_nil_iff.2 ⟨rfl, hnil⟩)⟩
    rw [hbare]
    exact List.singleton_sublist.2 (List.mem_of_head? hhead)
  · rw [toList_escaped_ofSegments hbare, String.toList_ofList, toList_map_ofList]
    exact spell_sublist first hmore

theorem length_escaped_lt (h : Name.parse text = .ok name) (hne : name.escaped ≠ text) :
    name.escaped.length < text.length := by
  have hsublist := escaped_sublist h
  rw [← String.length_toList, ← String.length_toList]
  apply Nat.lt_of_le_of_ne hsublist.length_le
  intro hlength
  exact hne (String.toList_inj.1 (hsublist.eq_of_length hlength))

end Name

end Keyspace
