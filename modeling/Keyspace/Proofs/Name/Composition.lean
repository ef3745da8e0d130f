import Keyspace.Proofs.Name.Grammar
import Keyspace.Proofs.Name.Reachable

namespace Keyspace.Name

open Piece

/-- The name without its last segment, unless it is a bare root. -/
def up (name : Name) : Name :=
  if name.segments.length ≤ 1 then name else ofSegments name.segments.dropLast

/-- The name that an escaped piece leads to. -/
def visit (name : Name) (piece : Piece) : Except KeyError Name :=
  if piece = self then .ok name
  else if piece = parent then .ok name.up
  else name.join (unescapeText piece)

theorem visit_self (name : Name) : name.visit self = .ok name :=
  if_pos rfl

theorem visit_parent (name : Name) : name.visit parent = .ok name.up := by
  rw [visit, if_neg (by decide), if_pos rfl]

theorem visit_level {piece : Piece} (hself : piece ≠ self) (hparent : piece ≠ parent)
    (name : Name) : name.visit piece = name.join (unescapeText piece) := by
  rw [visit, if_neg hself, if_neg hparent]

variable {root : String} {kept : List (List Char)}

theorem up_ofSegments (root : String) (kept : List (List Char)) :
    (ofSegments (root :: kept.map String.ofList)).up =
      ofSegments (root :: kept.dropLast.map String.ofList) := by
  cases kept with
  | nil => rfl
  | cons raw kept =>
    rw [up, if_neg]
    · rw [List.map_dropLast]
      rfl
    · simp [ofSegments]

theorem isCanonical_settle (h : IsCanonical (root :: kept.map String.ofList)) {raw : List Char}
    (hraw : raw ≠ []) : IsCanonical (root :: (settle kept raw).map String.ofList) := by
  obtain ⟨hroot, hkept⟩ := isCanonical_cons.1 h
  refine isCanonical_cons.2 ⟨hroot, ?_⟩
  intro segment hsegment
  obtain ⟨piece, hpiece, rfl⟩ := List.mem_map.1 hsegment
  have hsettled : piece ∈ [raw].foldl settle kept := hpiece
  rcases mem_foldl_settle hsettled with hold | ⟨hnew, hlevel⟩
  · exact hkept _ (List.mem_map_of_mem hold)
  · obtain rfl := List.mem_singleton.1 hnew
    exact isLevel_ofList_iff.2 ⟨hraw, hlevel⟩

/-- One piece leads from a canonical name to the one that has the piece settled. -/
theorem visit_escapeSegment (h : IsCanonical (root :: kept.map String.ofList)) {raw : List Char}
    (hraw : raw ≠ []) :
    (ofSegments (root :: kept.map String.ofList)).visit (escapeSegment raw) =
      .ok (ofSegments (root :: (settle kept raw).map String.ofList)) := by
  by_cases hself : raw = self
  · subst hself
    exact visit_self _
  by_cases hparent : raw = parent
  · subst hparent
    exact (visit_parent _).trans (congrArg Except.ok (up_ofSegments root kept))
  have hlevel : IsLevel (String.ofList raw) := isLevel_ofList_iff.2 ⟨hraw, hself, hparent⟩
  rw [visit_level (fun he => hself (escapeSegment_eq_self_iff.1 he))
      (fun he => hparent (escapeSegment_eq_parent_iff.1 he)),
    unescapeText_escapeSegment, join_ofSegments h hlevel, settle_level hself hparent,
    List.map_append]
  rfl

theorem foldlM_visit {pieces : List (List Char)} (hpieces : ∀ raw ∈ pieces, raw ≠ [])
    (h : IsCanonical (root :: kept.map String.ofList)) :
    (pieces.map escapeSegment).foldlM visit (ofSegments (root :: kept.map String.ofList)) =
      .ok (ofSegments (root :: (pieces.foldl settle kept).map String.ofList)) := by
  induction pieces generalizing kept with
  | nil => rfl
  | cons raw pieces ih =>
    obtain ⟨hraw, hrest⟩ := List.forall_mem_cons.1 hpieces
    rw [List.map_cons, List.foldlM_cons, visit_escapeSegment h hraw]
    exact ih hrest (isCanonical_settle h hraw)

theorem toList_append_separator (text more : String) :
    (text ++ "/" ++ more).toList = text.toList ++ separator :: more.toList := by
  rw [String.toList_append, String.toList_append, List.append_assoc]
  rfl

variable {text more : String} {name : Name}

theorem parse_append_of_paired (h : Name.parse text = .ok name)
    (hmore : EscapesPaired more.toList) :
    ∃ result, Name.parse (text ++ "/" ++ more) = .ok result ∧
      (Piece.levels more.toList).foldlM visit name = .ok result := by
  have hcanonical := (parse_isCanonical h).1
  obtain ⟨first, pieces, hne, rfl, hroot, rfl⟩ := spell_of_parse_eq_ok h
  obtain ⟨next, others, hspell⟩ := exists_spell hmore.wellEscaped
  have htext : String.ofList (spell first pieces) ++ "/" ++ more =
      String.ofList (spell first (pieces ++ next :: others)) := by
    rw [← String.toList_inj, toList_append_separator, String.toList_ofList, String.toList_ofList,
      hspell, spell_append]
  have hlonger : spell first (pieces ++ next :: others) ≠ [] := by
    intro hnil
    exact List.append_ne_nil_of_right_ne_nil pieces (List.cons_ne_nil next others)
      (spell_eq_nil_iff.1 hnil).2
  have hfollowing : ∀ raw ∈ (next :: others).filter (· ≠ []), raw ≠ [] := fun raw hraw =>
    of_decide_eq_true (List.mem_filter.1 hraw).2
  refine ⟨ofSegments (String.ofList first :: (((next :: others).filter (· ≠ [])).foldl settle
    ((pieces.filter (· ≠ [])).foldl settle [])).map String.ofList), ?_, ?_⟩
  · rw [htext, parse_spell hlonger, if_neg hroot, resolve_eq_foldl_settle, List.filter_append,
      List.foldl_append]
  · rw [hspell, Piece.levels, split_spell, filter_escapeSegment]
    exact foldlM_visit hfollowing hcanonical

theorem parse_append_of_not_paired (h : Name.parse text = .ok name)
    (hmore : ¬EscapesPaired more.toList) :
    Name.parse (text ++ "/" ++ more) =
      .error (.invalidName (text ++ "/" ++ more) .danglingEscape) := by
  obtain ⟨first, pieces, -, rfl⟩ := exists_spell_of_parse h
  have htext : (String.ofList (spell first pieces) ++ "/" ++ more).toList =
      spell first pieces ++ separator :: more.toList := by
    rw [toList_append_separator, String.toList_ofList]
  have hrefused : Refused (String.ofList (spell first pieces) ++ "/" ++ more) .danglingEscape := by
    constructor
    · intro hempty
      rw [hempty] at htext
      exact List.append_ne_nil_of_right_ne_nil _ (List.cons_ne_nil _ _) htext.symm
    · rwa [htext, escapesPaired_iff, wellEscaped_spell_append, ← escapesPaired_iff]
  exact hrefused.parse

/-- Behind a text that was read, a well-escaped one is read on from the name piece by piece. -/
theorem parse_continues (h : Name.parse text = .ok name) (more : String) :
    (EscapesPaired more.toList →
      ∃ result, Name.parse (text ++ "/" ++ more) = .ok result ∧
        (Piece.levels more.toList).foldlM visit name = .ok result ∧
        Name.parse (name.escaped ++ "/" ++ more) = .ok result) ∧
    (¬EscapesPaired more.toList →
      Name.parse (text ++ "/" ++ more) =
        .error (.invalidName (text ++ "/" ++ more) .danglingEscape) ∧
      Name.parse (name.escaped ++ "/" ++ more) =
        .error (.invalidName (name.escaped ++ "/" ++ more) .danglingEscape)) := by
  have hcanonical : Name.parse name.escaped = .ok name := (Reachable.parse h).parse_escaped
  constructor
  · intro hmore
    -- both readings go on from the same name, so they cannot part
    obtain ⟨result, hread, hvisited⟩ := parse_append_of_paired h hmore
    obtain ⟨other, hagain, hother⟩ := parse_append_of_paired hcanonical hmore
    rw [Except.ok.inj (hother.symm.trans hvisited)] at hagain
    exact ⟨result, hread, hvisited, hagain⟩
  · intro hmore
    exact ⟨parse_append_of_not_paired h hmore, parse_append_of_not_paired hcanonical hmore⟩

theorem parse_past_detour :
    let name : Name := ⟨"user/b", ["user", "b"]⟩
    let result : Name := ⟨"user/c\\/d", ["user", "c/d"]⟩
    Name.parse "user//a/.././b/" = .ok name ∧ EscapesPaired "..//../c\\/d".toList ∧
      Name.parse ("user//a/.././b/" ++ "/" ++ "..//../c\\/d") = .ok result ∧
      (Piece.levels "..//../c\\/d".toList).foldlM visit name = .ok result ∧
      Name.parse (name.escaped ++ "/" ++ "..//../c\\/d") = .ok result := by
  have hread : Name.parse "user//a/.././b/" = .ok ⟨"user/b", ["user", "b"]⟩ := by decide +kernel
  have hresult : Name.parse ("user/b" ++ "/" ++ "..//../c\\/d") =
      .ok ⟨"user/c\\/d", ["user", "c/d"]⟩ := by
    decide +kernel
  have hmore : EscapesPaired "..//../c\\/d".toList := escapesPaired_iff.2 (by decide +kernel)
  obtain ⟨found, hfound, hvisited, hcanonical⟩ := (parse_continues hread "..//../c\\/d").1 hmore
  obtain rfl := Except.ok.inj (hcanonical.symm.trans hresult)
  exact ⟨hread, hmore, hfound, hvisited, hcanonical⟩

end Keyspace.Name
