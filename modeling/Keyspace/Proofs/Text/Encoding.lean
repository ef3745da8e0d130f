import Keyspace.Text.Utf8

namespace Keyspace.Text

def encode (chars : List Char) : List UInt8 :=
  chars.flatMap String.utf8EncodeChar

theorem utf8_eq_encode (text : String) : utf8 text = encode text.toList := by
  rw [utf8, ← String.utf8Encode_toList]
  simp [List.utf8Encode, encode]

@[simp] theorem encode_nil : encode [] = [] := rfl

@[simp] theorem encode_cons (c : Char) (chars : List Char) :
    encode (c :: chars) = String.utf8EncodeChar c ++ encode chars := rfl

@[simp] theorem encode_append (a b : List Char) : encode (a ++ b) = encode a ++ encode b := by
  simp [encode]

theorem ofUtf8?_encode (chars : List Char) :
    ofUtf8? (encode chars) = some (String.ofList chars) := by
  rw [ofUtf8?_eq_some_iff, utf8_eq_encode, String.toList_ofList]

theorem encodeChar_of_ascii {c : Char} (h : c.toNat < 128) :
    String.utf8EncodeChar c = [c.toUInt8] := by
  have hle : c.val.toNat ≤ 0x7f := Nat.le_of_lt_succ h
  rw [String.utf8EncodeChar, if_pos hle]
  rfl

theorem le_of_mem_encodeChar {c : Char} {b : UInt8} (h : 128 ≤ c.toNat)
    (hb : b ∈ String.utf8EncodeChar c) : 128 ≤ b.toNat := by
  have hgt : ¬c.val.toNat ≤ 0x7f := Nat.not_le_of_gt h
  rw [String.utf8EncodeChar, if_neg hgt] at hb
  -- one case for each number of bytes, all of which carry a mark at or above 128
  split at hb
  · simp only [List.mem_cons, List.not_mem_nil, or_false] at hb
    rcases hb with rfl | rfl <;> simp <;> omega
  · split at hb
    · simp only [List.mem_cons, List.not_mem_nil, or_false] at hb
      rcases hb with rfl | rfl | rfl <;> simp <;> omega
    · simp only [List.mem_cons, List.not_mem_nil, or_false] at hb
      rcases hb with rfl | rfl | rfl | rfl <;> simp <;> omega

theorem ne_of_mem_encodeChar {c d : Char} {b : UInt8} (hd : d.toNat < 128) (hcd : c ≠ d)
    (hb : b ∈ String.utf8EncodeChar c) : b ≠ d.toUInt8 := by
  intro he
  have hbyte : b.toNat = d.toNat := by
    rw [he]
    exact Nat.mod_eq_of_lt (Nat.lt_trans hd (by decide))
  by_cases hc : c.toNat < 128
  · rw [encodeChar_of_ascii hc, List.mem_singleton] at hb
    apply hcd
    apply Char.toNat_inj.1
    rw [← hbyte, hb]
    exact (Nat.mod_eq_of_lt (Nat.lt_trans hc (by decide))).symm
  · have := le_of_mem_encodeChar (Nat.le_of_not_gt hc) hb
    omega

theorem byte_mem_utf8_iff {c : Char} (hc : c.toNat < 128) {text : String} :
    c.toUInt8 ∈ utf8 text ↔ c ∈ text.toList := by
  rw [utf8_eq_encode, encode, List.mem_flatMap]
  constructor
  · intro h
    obtain ⟨d, hd, hbyte⟩ := h
    by_cases hdc : d = c
    · exact hdc ▸ hd
    · exact (ne_of_mem_encodeChar hc hdc hbyte rfl).elim
  · intro hmem
    refine ⟨c, hmem, ?_⟩
    rw [encodeChar_of_ascii hc]
    exact List.mem_singleton_self _

theorem utf8_isPrefix_iff {a b : String} : utf8 a <+: utf8 b ↔ a.toList <+: b.toList := by
  constructor
  · intro h
    obtain ⟨rest, hrest⟩ := h
    apply List.isPrefix_of_utf8Encode_append_eq_utf8Encode ⟨rest.toArray⟩
    rw [String.utf8Encode_toList, String.utf8Encode_toList]
    apply ByteArray.ext
    apply Array.toList_inj.1
    simpa [ByteArray.data_append, utf8] using hrest
  · intro h
    obtain ⟨rest, hrest⟩ := h
    refine ⟨encode rest, ?_⟩
    rw [utf8_eq_encode, utf8_eq_encode, ← hrest, encode_append]

end Keyspace.Text
