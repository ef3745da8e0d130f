import Keyspace.Proofs.Key.Diff

namespace Keyspace

namespace Value

variable {a b : Value}

/-- The second value holds as its bytes what the first one is stored as. -/
inductive MistakenFor : Value → Value → Prop
  | text (content : String) : MistakenFor (.text content) (.binary (Text.utf8 content ++ [0]))
  | absent : MistakenFor .absent (.binary [])

theorem MistakenFor.storedBytes_eq (h : a.MistakenFor b) : a.storedBytes = b.storedBytes := by
  cases h with
  | text content => rfl
  | absent => rfl

theorem storedBytes_text_ne_nil (content : String) : (text content).storedBytes ≠ [] :=
  List.append_ne_nil_of_right_ne_nil _ (List.cons_ne_nil 0 [])

theorem storedBytes_text_injective {content other : String}
    (h : (text content).storedBytes = (text other).storedBytes) : content = other :=
  Text.utf8_injective (List.append_cancel_right h)

/-- The stored form tells values apart but for bytes that are the stored form of another value. -/
theorem storedBytes_eq_iff :
    a.storedBytes = b.storedBytes ↔ a = b ∨ a.MistakenFor b ∨ b.MistakenFor a := by
  constructor
  · intro h
    cases a with
    | absent =>
      cases b with
      | absent => exact .inl rfl
      | text other => exact absurd h.symm (storedBytes_text_ne_nil other)
      | binary bytes =>
        obtain rfl : [] = bytes := h
        exact .inr (.inl .absent)
    | text content =>
      cases b with
      | absent => exact absurd h (storedBytes_text_ne_nil content)
      | text other => exact .inl (congrArg text (storedBytes_text_injective h))
      | binary bytes =>
        obtain rfl : Text.utf8 content ++ [0] = bytes := h
        exact .inr (.inl (.text content))
    | binary bytes =>
      cases b with
      | absent =>
        obtain rfl : bytes = [] := h
        exact .inr (.inr .absent)
      | text other =>
        obtain rfl : bytes = Text.utf8 other ++ [0] := h
        exact .inr (.inr (.text other))
      | binary other => exact .inl (congrArg binary h)
  · rintro (rfl | h | h)
    · rfl
    · exact h.storedBytes_eq
    · exact h.storedBytes_eq.symm

theorem length_storedBytes (value : Value) :
    value.storedBytes.length = value.bytes.length + value.isText.toNat := by
  cases value with
  | absent => rfl
  | text content => exact List.length_append
  | binary content => rfl

theorem isText_eq_of_storedBytes_eq (hstored : a.storedBytes = b.storedBytes)
    (hbytes : a.bytes = b.bytes) : a.isText = b.isText := by
  have hinjective : ∀ x y : Bool, x.toNat = y.toNat → x = y := by decide
  have hsize := congrArg List.length hstored
  rw [length_storedBytes, length_storedBytes, hbytes] at hsize
  exact hinjective _ _ (Nat.add_left_cancel hsize)

end Value

namespace Key

variable {a b : Key}

theorem Coherent.value_ne_binary (h : a.Coherent) (hunmarked : a.isText = true)
    (content : List UInt8) : a.value ≠ .binary content := by
  intro hvalue
  rw [isText, h.isBinary_of_binary hvalue] at hunmarked
  cases hunmarked

theorem Coherent.value_ne_text (h : a.Coherent) (hmarked : a.isBinary = true) (content : String) :
    a.value ≠ .text content := by
  intro hvalue
  rw [h.isBinary_of_text hvalue] at hmarked
  cases hmarked

theorem Coherent.not_mistakenFor (h : b.Coherent) (hunmarked : b.isText = true) (value : Value) :
    ¬value.MistakenFor b.value := by
  intro hmistaken
  generalize hb : b.value = other at hmistaken
  cases hmistaken with
  | text content => exact h.value_ne_binary hunmarked _ hb
  | absent => exact h.value_ne_binary hunmarked _ hb

theorem Coherent.mistakenFor_iff (h : a.Coherent) (hmarked : a.isBinary = true) (value : Value) :
    a.value.MistakenFor value ↔ a.value = .absent ∧ value = .binary [] := by
  constructor
  · intro hmistaken
    generalize ha : a.value = taken at hmistaken ⊢
    cases hmistaken with
    | text content => exact absurd ha (h.value_ne_text hmarked content)
    | absent => exact ⟨rfl, rfl⟩
  · rintro ⟨ha, rfl⟩
    rw [ha]
    exact .absent

/-- A change of the value is missed exactly where bytes are the stored form of the other value. -/
theorem Reachable.value_differs_iff (ha : a.Reachable) (hb : b.Reachable)
    (model : PermissionModel) :
    let differs := (DiffMask.diff model (some a) (some b)).bits.testBit Difference.value.bit
    (differs = false ↔ a.value.storedSize = b.value.storedSize ∧
      a.value.storedBytes = b.value.storedBytes) ∧
    (differs = false ↔
      a.value = b.value ∨ a.value.MistakenFor b.value ∨ b.value.MistakenFor a.value) ∧
    (a.isText = true → b.isText = true → (differs = false ↔ a.value = b.value)) ∧
    (a.isBinary = true → b.isBinary = true → (differs = false ↔
      a.value = b.value ∨ (a.value = .absent ∧ b.value = .binary []) ∨
        (b.value = .absent ∧ a.value = .binary []))) ∧
    (a.value.isText ≠ b.value.isText → a.value.bytes = b.value.bytes → differs = true) := by
  intro differs
  have hcounts : model.counts .value = true := rfl
  have hstored : differs = false ↔ a.value.storedBytes = b.value.storedBytes :=
    DiffMask.testBit_diff_eq_false_iff hcounts
  have hmistaken := hstored.trans Value.storedBytes_eq_iff
  refine ⟨?_, hmistaken, ?_, ?_, ?_⟩
  · rw [hstored, Value.storedSize_eq_length, Value.storedSize_eq_length]
    exact ⟨fun hsame => ⟨congrArg List.length hsame, hsame⟩, And.right⟩
  · intro hunmarkedA hunmarkedB
    rw [hmistaken, or_iff_left]
    rw [not_or]
    exact ⟨hb.coherent.not_mistakenFor hunmarkedB _, ha.coherent.not_mistakenFor hunmarkedA _⟩
  · intro hmarkedA hmarkedB
    rw [hmistaken, ha.coherent.mistakenFor_iff hmarkedA, hb.coherent.mistakenFor_iff hmarkedB]
  · intro hkind hbytes
    rw [← Bool.not_eq_false, hstored]
    intro hsame
    exact hkind (Value.isText_eq_of_storedBytes_eq hsame hbytes)

theorem value_differs_of_stored_form :
    let text := nameless.afterAll [.setText "v"]
    let closed := nameless.afterAll [.setBinary [118, 0]]
    let content := nameless.afterAll [.setBinary [118]]
    let nothing := nameless.afterAll [.setBinary [], .clearValue]
    let noBytes := nameless.afterAll [.setBinary []]
    let differs := fun a b : Key =>
      (DiffMask.diff .posix (some a) (some b)).bits.testBit Difference.value.bit
    differs text closed = false ∧ differs text content = true ∧ differs nothing noBytes = false ∧
      (differs text nameless = false ↔ text.value = nameless.value) := by
  intro text closed content nothing noBytes differs
  have hreachable (edits : List Edit) : (nameless.afterAll edits).Reachable :=
    (Reachable.fresh .nameless).afterAll edits
  obtain ⟨hclosed, -⟩ := (hreachable [.setText "v"]).value_differs_iff
    (hreachable [.setBinary [118, 0]]) .posix
  obtain ⟨-, -, -, -, hcontent⟩ := (hreachable [.setText "v"]).value_differs_iff
    (hreachable [.setBinary [118]]) .posix
  obtain ⟨-, -, -, hmarked, -⟩ := (hreachable [.setBinary [], .clearValue]).value_differs_iff
    (hreachable [.setBinary []]) .posix
  obtain ⟨-, -, hunmarked, -⟩ := (hreachable [.setText "v"]).value_differs_iff
    (.fresh .nameless) .posix
  exact ⟨hclosed.2 (by decide +kernel), hcontent (by decide +kernel) (by decide +kernel),
    (hmarked (by decide +kernel) (by decide +kernel)).2 (.inr (.inl (by decide +kernel))),
    hunmarked (by decide +kernel) (by decide +kernel)⟩

end Key

end Keyspace
