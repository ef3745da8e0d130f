import Keyspace.Proofs.Name.Canonical

namespace Keyspace

/-- Read from the left, every escape comes before a separator or another escape. -/
inductive EscapesPaired : List Char → Prop
  | nil : EscapesPaired []
  | plain {c : Char} {rest : List Char} (hc : c ≠ escape) (hrest : EscapesPaired rest) :
      EscapesPaired (c :: rest)
  | pair {c : Char} {rest : List Char} (hc : c = separator ∨ c = escape)
      (hrest : EscapesPaired rest) : EscapesPaired (escape :: c :: rest)

theorem isReserved_iff {c : Char} : isReserved c = true ↔ c = separator ∨ c = escape := by
  simp [isReserved]

theorem EscapesPaired.wellEscaped {text : List Char} (h : EscapesPaired text) :
    Keyspace.wellEscaped text = true := by
  induction h with
  | nil => rfl
  | plain hc hrest ih => rw [wellEscaped_cons hc, ih]
  | pair hc hrest ih => rw [wellEscaped_pair, isReserved_iff.2 hc, ih, Bool.true_and]

theorem escapesPaired_iff {text : List Char} : EscapesPaired text ↔ wellEscaped text = true := by
  refine ⟨EscapesPaired.wellEscaped, fun h => ?_⟩
  induction text using wellEscaped.induct with
  | case1 => exact .nil
  | case2 => simp [wellEscaped] at h
  | case3 c rest ih =>
    rw [wellEscaped_pair, Bool.and_eq_true] at h
    exact .pair (isReserved_iff.1 h.1) (ih h.2)
  | case4 c rest hc ih =>
    rw [wellEscaped_cons hc] at h
    exact .plain hc (ih h)

namespace Name

open Piece

/-- The text before the first separator that no escape protects. -/
def firstPiece (text : String) : Piece :=
  (split text.toList).headD []

/-- The texts that name something, none of which starts with a relative piece. -/
structure Grammatical (text : String) : Prop where
  ne_empty : text ≠ ""
  paired : EscapesPaired text.toList
  root : text.toList.head? ≠ some separator →
    firstPiece text ≠ self ∧ firstPiece text ≠ parent

/-- The root of a text, and what its later pieces leave when they are followed in order. -/
def readSegments (text : String) : List String :=
  (if text.toList.head? = some separator then "" else unescapeText (firstPiece text)) ::
    (((split text.toList).tail.filter (· ≠ [])).foldl settle []).map unescapeText

/-- The rule that a refused text breaks, given that it keeps the rules before. -/
def Refused (text : String) : NameFault → Prop
  | .empty => text = ""
  | .danglingEscape => text ≠ "" ∧ ¬EscapesPaired text.toList
  | .relativeRoot =>
    text ≠ "" ∧ EscapesPaired text.toList ∧ text.toList.head? ≠ some separator ∧
      (firstPiece text = self ∨ firstPiece text = parent)
  | .relativeSegment | .emptyMetadataName => False

theorem firstPiece_spell (first : List Char) (more : List (List Char)) :
    firstPiece (String.ofList (spell first more)) = escapeSegment first := by
  rw [firstPiece, String.toList_ofList, split_spell]
  rfl

theorem readSegments_spell (first : List Char) (more : List (List Char)) :
    readSegments (String.ofList (spell first more)) =
      String.ofList first :: (resolve (more.filter (· ≠ []))).map String.ofList := by
  have hroot : (if first = [] ∧ more ≠ [] then "" else String.ofList first) =
      String.ofList first := by
    split
    · rename_i h
      rw [h.1]
    · rfl
  simp only [readSegments, String.toList_ofList, head_spell_iff, firstPiece_spell,
    unescapeText_escapeSegment, hroot, split_spell, List.map_cons, List.tail_cons,
    filter_escapeSegment]
  rw [← resolve_eq_foldl_settle, resolve_escapeSegment, map_unescapeText_escapeSegment]

theorem not_relative_of_spell {first : List Char} {more : List (List Char)}
    (h : Grammatical (String.ofList (spell first more))) : ¬(first = self ∨ first = parent) := by
  intro hrelative
  have hhead : (String.ofList (spell first more)).toList.head? ≠ some separator := by
    rw [String.toList_ofList, Ne, head_spell_iff]
    rintro ⟨rfl, -⟩
    rcases hrelative with h | h <;> cases h
  obtain ⟨hself, hparent⟩ := h.root hhead
  rw [firstPiece_spell] at hself hparent
  rcases hrelative with rfl | rfl
  · exact hself rfl
  · exact hparent rfl

theorem Grammatical.parse {text : String} (h : Grammatical text) :
    Name.parse text = .ok (ofSegments (readSegments text)) := by
  obtain ⟨first, more, hne, rfl⟩ := exists_spell_of_ne_empty h.ne_empty h.paired.wellEscaped
  rw [parse_spell hne, if_neg (not_relative_of_spell h), readSegments_spell]

theorem Refused.parse {text : String} {fault : NameFault} (h : Refused text fault) :
    Name.parse text = .error (.invalidName text fault) := by
  cases fault with
  | empty => exact if_pos h
  | danglingEscape =>
    obtain ⟨hne, hescapes⟩ := h
    rw [escapesPaired_iff, Bool.not_eq_true] at hescapes
    rw [Name.parse, if_neg hne, if_pos hescapes]
  | relativeRoot =>
    obtain ⟨hempty, hescapes, -, hrelative⟩ := h
    obtain ⟨first, more, hne, rfl⟩ := exists_spell_of_ne_empty hempty hescapes.wellEscaped
    rw [firstPiece_spell, escapeSegment_eq_self_iff, escapeSegment_eq_parent_iff] at hrelative
    rw [parse_spell hne, if_pos hrelative]
  | relativeSegment => exact h.elim
  | emptyMetadataName => exact h.elim

theorem grammatical_or_refused (text : String) :
    Grammatical text ∨ ∃ fault, Refused text fault := by
  by_cases hempty : text = ""
  · exact .inr ⟨.empty, hempty⟩
  by_cases hescapes : EscapesPaired text.toList
  · by_cases hhead : text.toList.head? = some separator
    · exact .inl ⟨hempty, hescapes, fun h => absurd hhead h⟩
    · by_cases hrelative : firstPiece text = self ∨ firstPiece text = parent
      · exact .inr ⟨.relativeRoot, hempty, hescapes, hhead, hrelative⟩
      · exact .inl ⟨hempty, hescapes, fun _ => not_or.1 hrelative⟩
  · exact .inr ⟨.danglingEscape, hempty, hescapes⟩

/-- A text is read exactly when the grammar has it, and else refused for the first rule it breaks.
-/
theorem parse_iff_grammar (text : String) :
    (∀ name, Name.parse text = .ok name ↔
      Grammatical text ∧ name = ofSegments (readSegments text)) ∧
    ∀ error, Name.parse text = .error error ↔
      ∃ fault, error = .invalidName text fault ∧ Refused text fault := by
  constructor
  · intro name
    constructor
    · intro h
      rcases grammatical_or_refused text with hread | ⟨fault, hrefused⟩
      · rw [hread.parse] at h
        exact ⟨hread, (Except.ok.inj h).symm⟩
      · rw [hrefused.parse] at h
        cases h
    · intro h
      obtain ⟨hread, rfl⟩ := h
      exact hread.parse
  · intro error
    constructor
    · intro h
      rcases grammatical_or_refused text with hread | ⟨fault, hrefused⟩
      · rw [hread.parse] at h
        cases h
      · rw [hrefused.parse] at h
        exact ⟨fault, (Except.error.inj h).symm, hrefused⟩
    · intro h
      obtain ⟨fault, rfl, hrefused⟩ := h
      exact hrefused.parse

end Name

end Keyspace
