import Keyspace.Name.Levels
import Keyspace.Proofs.Name.Spelling
import Keyspace.Proofs.Text.Encoding

namespace Keyspace.Levels

open Text Piece

theorem stop_append_of_plain {bytes : List UInt8}
    (h : ∀ b ∈ bytes, b ≠ escape.toUInt8 ∧ b ≠ separator.toUInt8) (rest : List UInt8) :
    stop (bytes ++ rest) = bytes.length + stop rest := by
  induction bytes with
  | nil => simp
  | cons b bytes ih =>
    obtain ⟨he, hs⟩ := h b List.mem_cons_self
    have hih := ih fun b hb => h b (List.mem_cons_of_mem _ hb)
    rw [List.cons_append, stop_cons he hs, hih, List.length_cons]
    omega

theorem encodeChar_of_reserved {c : Char} (hc : isReserved c = true) :
    String.utf8EncodeChar c = [c.toUInt8] := by
  apply encodeChar_of_ascii
  simp only [isReserved, Bool.or_eq_true, beq_iff_eq] at hc
  rcases hc with rfl | rfl <;> decide

/-- The search passes over an escaped segment as a whole, whatever characters it holds. -/
theorem stop_escapeSegment (raw : List Char) (rest : List UInt8) :
    stop (encode (escapeSegment raw) ++ rest) =
      (encode (escapeSegment raw)).length + stop rest := by
  induction raw with
  | nil => simp [escapeSegment]
  | cons c raw ih =>
    cases hc : isReserved c with
    | true =>
      have hescape : String.utf8EncodeChar escape = [escape.toUInt8] :=
        encodeChar_of_reserved (by decide)
      simp only [escapeSegment_reserved hc, encode_cons, hescape, encodeChar_of_reserved hc,
        List.cons_append, List.nil_append, List.length_cons]
      rw [stop_pair, ih]
      omega
    | false =>
      have hplain : c ≠ separator ∧ c ≠ escape := by simpa [isReserved] using hc
      simp only [escapeSegment_plain hc, encode_cons, List.append_assoc, List.length_append]
      rw [stop_append_of_plain ?_, ih]
      · omega
      · intro b hb
        exact ⟨ne_of_mem_encodeChar (by decide) hplain.2 hb,
          ne_of_mem_encodeChar (by decide) hplain.1 hb⟩

theorem stop_spell_nil (first : List Char) :
    stop (encode (spell first [])) = (encode (escapeSegment first)).length := by
  have hstop := stop_escapeSegment first []
  rw [List.append_nil] at hstop
  rw [spell_nil, hstop]
  rfl

theorem encode_spell_cons (first next : List Char) (more : List (List Char)) :
    encode (spell first (next :: more)) =
      encode (escapeSegment first) ++ separator.toUInt8 :: encode (spell next more) := by
  rw [spell_cons, encode_append, encode_cons, encodeChar_of_reserved (by decide)]
  rfl

theorem stop_spell_cons (first next : List Char) (more : List (List Char)) :
    stop (encode (spell first (next :: more))) = (encode (escapeSegment first)).length := by
  rw [encode_spell_cons, stop_escapeSegment, stop_separator]
  rfl

theorem cut?_spell_nil (first : List Char) :
    cut? (String.ofList (spell first [])) = some (String.ofList (escapeSegment first), "") := by
  rw [cut?, utf8_eq_encode, String.toList_ofList, stop_spell_nil, spell_nil]
  simp only [Nat.min_self, List.take_length, ofUtf8?_encode, Option.map_some]
  rw [List.drop_of_length_le (Nat.le_succ _)]
  rfl

theorem cut?_spell_cons (first next : List Char) (more : List (List Char)) :
    cut? (String.ofList (spell first (next :: more))) =
      some (String.ofList (escapeSegment first), String.ofList (spell next more)) := by
  rw [cut?, utf8_eq_encode, String.toList_ofList, stop_spell_cons, encode_spell_cons]
  have hcut (a b : List UInt8) : min a.length (a ++ b).length = a.length := by simp
  simp only [hcut, List.take_left, ofUtf8?_encode, Option.map_some]
  rw [List.append_cons, List.drop_left' (by simp), ofUtf8?_encode]
  rfl

theorem ofText_spell (first : List Char) (more : List (List Char)) :
    ofText (String.ofList (spell first more)) =
      ((first :: more).filter (· ≠ [])).map fun raw => String.ofList (escapeSegment raw) := by
  induction more generalizing first with
  | nil =>
    by_cases hfirst : first = []
    · subst hfirst
      exact ofText_empty
    · have hne : String.ofList (spell first []) ≠ "" := by
        rw [Ne, String.ofList_eq_empty_iff, spell_nil, escapeSegment_eq_nil_iff]
        exact hfirst
      rw [ofText_of_cut? (cut?_spell_nil first) hne, ofText_empty]
      simp [escapeSegment_eq_nil_iff, hfirst]
  | cons next more ih =>
    have hne : String.ofList (spell first (next :: more)) ≠ "" := by
      rw [Ne, String.ofList_eq_empty_iff, spell_eq_nil_iff]
      exact fun h => List.cons_ne_nil _ _ h.2
    rw [ofText_of_cut? (cut?_spell_cons first next more) hne, ih next]
    by_cases hfirst : first = []
    · simp [escapeSegment_eq_nil_iff, hfirst]
    · simp [escapeSegment_eq_nil_iff, hfirst]

/-- Bytes and characters are divided alike. -/
theorem ofText_eq_levels {text : String} (h : wellEscaped text.toList = true) :
    ofText text = (Piece.levels text.toList).map String.ofList := by
  obtain ⟨first, more, hspell⟩ := exists_spell h
  have hlevels := ofText_spell first more
  rw [← hspell, String.ofList_toList] at hlevels
  rw [hlevels, hspell, Piece.levels, split_spell, filter_escapeSegment, List.map_map]
  rfl

end Keyspace.Levels
