import Keyspace.Proofs.Name.Canonical
import Mathlib.Data.List.Basic

namespace Keyspace.Name

open Piece

/-- The names that can be read from a text, and those that appended segments make of them. -/
inductive Reachable : Name → Prop
  | parse {text : String} {name : Name} (h : Name.parse text = .ok name) : Reachable name
  | join {name joined : Name} {segment : String} (hname : Reachable name)
      (h : name.join segment = .ok joined) : Reachable joined

theorem exists_spell_of_parse {text : String} {name : Name} (h : Name.parse text = .ok name) :
    ∃ first more, spell first more ≠ [] ∧ text = String.ofList (spell first more) := by
  unfold Name.parse at h
  split at h
  · cases h
  · rename_i hempty
    split at h
    · cases h
    · rename_i hescaped
      exact exists_spell_of_ne_empty hempty (Bool.of_not_eq_false hescaped)

theorem spell_of_parse_eq_ok {text : String} {name : Name} (h : Name.parse text = .ok name) :
    ∃ first more, spell first more ≠ [] ∧ text = String.ofList (spell first more) ∧
      ¬(first = self ∨ first = parent) ∧
      name = ofSegments
        (String.ofList first :: ((more.filter (· ≠ [])).foldl settle []).map String.ofList) := by
  obtain ⟨first, more, hne, rfl⟩ := exists_spell_of_parse h
  rw [parse_spell hne] at h
  split at h
  · cases h
  · rename_i hroot
    rw [resolve_eq_foldl_settle] at h
    exact ⟨first, more, hne, rfl, hroot, (Except.ok.inj h).symm⟩

theorem parse_isCanonical {text : String} {name : Name} (h : Name.parse text = .ok name) :
    IsCanonical name.segments ∧ name = ofSegments name.segments := by
  obtain ⟨first, more, -, -, hroot, rfl⟩ := spell_of_parse_eq_ok h
  refine ⟨isCanonical_cons.2 ⟨?_, ?_⟩, rfl⟩
  · rw [Ne, Ne, ofList_eq_self_iff, ofList_eq_parent_iff]
    exact not_or.1 hroot
  · intro segment hsegment
    obtain ⟨piece, hpiece, rfl⟩ := List.mem_map.1 hsegment
    rw [← resolve_eq_foldl_settle] at hpiece
    obtain ⟨hmore, hlevel⟩ := mem_resolve hpiece
    rw [isLevel_ofList_iff]
    exact ⟨of_decide_eq_true (List.mem_filter.1 hmore).2, hlevel⟩

theorem render_eq_separator_iff {segments : List String} (h : IsCanonical segments) :
    render segments = "/" ↔ segments = [""] := by
  constructor
  · intro hrender
    obtain ⟨root, below, rfl⟩ := h.eq_cons
    by_cases hbare : root :: below = [""]
    · exact hbare
    · exfalso
      rw [render_cons hbare] at hrender
      -- a lone separator spells two empty pieces, and no level below a root is empty
      have hchars : spell root.toList (below.map String.toList) = spell [] [[]] := by
        rw [← String.toList_ofList (l := spell root.toList _), hrender]
        rfl
      obtain ⟨-, hbelow⟩ := spell_injective hchars
      obtain ⟨segment, rfl, hsegment⟩ := List.map_eq_singleton_iff.1 hbelow
      have hlevel := h.below segment List.mem_cons_self
      exact hlevel.1 (String.toList_eq_nil_iff.1 hsegment)
  · rintro rfl
    rfl

theorem join_ofSegments {segments : List String} {segment : String} (h : IsCanonical segments)
    (hlevel : IsLevel segment) :
    (ofSegments segments).join segment = .ok (ofSegments (segments ++ [segment])) := by
  have hrefused : ¬(segment = "" ∨ segment = "." ∨ segment = "..") := by
    rintro (he | he | he)
    · exact hlevel.1 he
    · exact hlevel.2.1 he
    · exact hlevel.2.2 he
  rw [join, if_neg hrefused]
  simp only [ofSegments, render_eq_separator_iff h]
  congr 2
  obtain ⟨root, below, rfl⟩ := h.eq_cons
  have hlonger : root :: (below ++ [segment]) ≠ [""] := by simp
  rw [List.cons_append, render_cons hlonger, ← String.toList_inj, String.toList_ofList,
    String.toList_append, toList_escapeText, List.map_append, List.map_singleton, spell_append,
    spell_nil]
  split
  · rename_i hbare
    obtain ⟨rfl, rfl⟩ := List.cons.inj hbare
    rfl
  · rename_i hbare
    rw [render_cons hbare, String.toList_push, String.toList_ofList, List.append_assoc]
    rfl

theorem join_eq_ok {name joined : Name} {segment : String} (h : name.join segment = .ok joined) :
    IsLevel segment := by
  unfold join at h
  split at h
  · cases h
  · rename_i hrefused
    obtain ⟨hempty, hrelative⟩ := not_or.1 hrefused
    exact ⟨hempty, not_or.1 hrelative⟩

theorem segments_of_join {name joined : Name} {segment : String}
    (h : name.join segment = .ok joined) : joined.segments = name.segments ++ [segment] := by
  unfold join at h
  split at h
  · cases h
  · cases h
    rfl

theorem escaped_ne_of_join {name joined : Name} {segment : String}
    (h : name.join segment = .ok joined) : name.escaped ≠ joined.escaped := by
  have hlevel := join_eq_ok h
  have hsegment : 0 < (escapeText segment).length := by
    rw [← String.length_toList, toList_escapeText, List.length_pos_iff, Ne,
      escapeSegment_eq_nil_iff]
    exact hlevel.toList.1
  unfold join at h
  split at h
  · cases h
  · cases h
    intro hsame
    have hlength := congrArg String.length hsame
    rw [String.length_append] at hlength
    split at hlength
    · omega
    · rw [String.length_push] at hlength
      omega

theorem Reachable.isCanonical {name : Name} (h : name.Reachable) :
    IsCanonical name.segments ∧ name = ofSegments name.segments := by
  induction h with
  | parse h => exact parse_isCanonical h
  | @join name joined segment hname h ih =>
    obtain ⟨hcanonical, hsegments⟩ := ih
    have hlevel := join_eq_ok h
    rw [hsegments, join_ofSegments hcanonical hlevel] at h
    cases h
    refine ⟨hcanonical.append ?_, rfl⟩
    intro other hother
    rw [List.mem_singleton.1 hother]
    exact hlevel

theorem filter_map_toList {below : List String} (h : ∀ segment ∈ below, IsLevel segment) :
    (below.map String.toList).filter (· ≠ []) = below.map String.toList := by
  rw [List.filter_eq_self]
  intro piece hpiece
  obtain ⟨segment, hsegment, rfl⟩ := List.mem_map.1 hpiece
  exact decide_eq_true (h segment hsegment).toList.1

theorem resolve_map_toList {below : List String} (h : ∀ segment ∈ below, IsLevel segment) :
    resolve (below.map String.toList) = below.map String.toList := by
  apply resolve_levels
  intro piece hpiece
  obtain ⟨segment, hsegment, rfl⟩ := List.mem_map.1 hpiece
  exact (h segment hsegment).toList.2

theorem parse_render {segments : List String} (h : IsCanonical segments) :
    Name.parse (render segments) = .ok (ofSegments segments) := by
  by_cases hbare : segments = [""]
  · subst hbare
    exact @parse_spell [] [[]] (by decide)
  · obtain ⟨root, below, rfl⟩ := h.eq_cons
    obtain ⟨⟨hself, hparent⟩, hbelow⟩ := isCanonical_cons.1 h
    rw [render_cons hbare, parse_spell (spell_ne_nil_of_cons hbare), filter_map_toList hbelow,
      resolve_map_toList hbelow, if_neg]
    · simp [Function.comp_def]
    · rw [← ofList_eq_self_iff, ← ofList_eq_parent_iff, String.ofList_toList]
      exact not_or.2 ⟨hself, hparent⟩

theorem Reachable.parse_escaped {name : Name} (h : name.Reachable) :
    Name.parse name.escaped = .ok name := by
  obtain ⟨hcanonical, hsegments⟩ := h.isCanonical
  rw [hsegments]
  exact parse_render hcanonical

theorem levels_ofSegments {root : String} {below : List String}
    (h : IsCanonical (root :: below)) :
    (ofSegments (root :: below)).levels =
      (if root = "" then below else root :: below).map escapeText := by
  obtain ⟨-, hbelow⟩ := isCanonical_cons.1 h
  have hescape (segments : List String) :
      (segments.map String.toList).map (fun raw => String.ofList (escapeSegment raw)) =
        segments.map escapeText :=
    List.map_map
  by_cases hbare : root :: below = [""]
  · obtain ⟨rfl, rfl⟩ := List.cons.inj hbare
    exact Levels.ofText_spell [] [[]]
  · rw [levels, ofSegments, render_cons hbare, Levels.ofText_spell, List.filter_cons,
      filter_map_toList hbelow]
    by_cases hroot : root = ""
    · subst hroot
      exact hescape below
    · have hne : root.toList ≠ [] := fun hnil => hroot (String.toList_eq_nil_iff.1 hnil)
      rw [if_pos (decide_eq_true hne), if_neg hroot, ← List.map_cons]
      exact hescape (root :: below)

/-- The segments of a reachable name are canonical, and its text renders them and is read as it. -/
theorem Reachable.representation {name : Name} (h : name.Reachable) :
    IsCanonical name.segments ∧
      name.escaped = render name.segments ∧
      name.levels =
        (if name.root = "" then name.segments.tail else name.segments).map escapeText ∧
      Name.parse name.escaped = .ok name := by
  obtain ⟨hcanonical, hsegments⟩ := h.isCanonical
  obtain ⟨root, below, hcons⟩ := hcanonical.eq_cons
  refine ⟨hcanonical, congrArg Name.escaped hsegments, ?_, h.parse_escaped⟩
  rw [hcons] at hcanonical hsegments
  rw [hsegments, levels_ofSegments hcanonical]
  rfl

theorem representation_of_detour :
    let name : Name := ⟨"/a\\\\/.\\/\\\\é", ["", "a\\", "./\\é"]⟩
    name.Reachable ∧
      IsCanonical name.segments ∧
      name.escaped = render name.segments ∧
      name.levels =
        (if name.root = "" then name.segments.tail else name.segments).map escapeText ∧
      Name.parse name.escaped = .ok name := by
  have hread : Name.parse "//b/.././a\\\\/" = .ok ⟨"/a\\\\", ["", "a\\"]⟩ := by decide +kernel
  have hjoin : Name.join ⟨"/a\\\\", ["", "a\\"]⟩ "./\\é" =
      .ok ⟨"/a\\\\/.\\/\\\\é", ["", "a\\", "./\\é"]⟩ := by decide +kernel
  have hreachable := (Reachable.parse hread).join hjoin
  exact ⟨hreachable, hreachable.representation⟩

end Keyspace.Name
