import Keyspace.Key.Diff
import Keyspace.Proofs.Key.Coherence

namespace Keyspace

namespace Difference

def Aspect : Difference → Type
  | name | owner | comment => String
  | value => List UInt8
  | uid | gid | mode => UInt32
  | presence => Unit

def isPermission : Difference → Bool
  | uid | gid | mode => true
  | _ => false

end Difference

namespace Key

/-- The aspect of the key in which the difference is looked for. -/
def aspect (key : Key) : (difference : Difference) → difference.Aspect
  | .name => key.nameText
  | .value => key.value.storedBytes
  | .owner => key.owner
  | .comment => key.comment
  | .uid => key.permissions.uid
  | .gid => key.permissions.gid
  | .mode => key.permissions.mode
  | .presence => ()

end Key

/-- Whether a difference counts where permissions have the meaning of the model. -/
def PermissionModel.counts (model : PermissionModel) (difference : Difference) : Bool :=
  !difference.isPermission || model.compares

namespace DiffMask

instance : Union DiffMask :=
  ⟨union⟩

instance : HasSubset DiffMask :=
  ⟨fun a b => ∀ difference, a.contains difference = true → b.contains difference = true⟩

def permissions : DiffMask := ofPred Difference.isPermission

variable {a b c : DiffMask} {difference : Difference} {place : Nat}

@[simp] theorem contains_ofPred (property : Difference → Bool) (difference : Difference) :
    (ofPred property).contains difference = property difference := by
  cases difference <;> rfl

theorem ext_contains (h : ∀ difference, a.contains difference = b.contains difference) : a = b := by
  change ofPred a.contains = ofPred b.contains
  rw [funext h]

@[simp] theorem contains_empty (difference : Difference) : empty.contains difference = false :=
  contains_ofPred _ difference

@[simp] theorem contains_only (own difference : Difference) :
    (only own).contains difference = (difference == own) :=
  contains_ofPred _ difference

@[simp] theorem contains_union (a b : DiffMask) (difference : Difference) :
    (a ∪ b).contains difference = (a.contains difference || b.contains difference) :=
  contains_ofPred _ difference

theorem subset_trans (h : a ⊆ b) (h' : b ⊆ c) : a ⊆ c :=
  fun difference hmem => h' difference (h difference hmem)

theorem union_subset_union {a' b' : DiffMask} (h : a ⊆ a') (h' : b ⊆ b') : a ∪ b ⊆ a' ∪ b' := by
  intro difference hmem
  rw [contains_union, Bool.or_eq_true] at hmem ⊢
  exact hmem.imp (h difference) (h' difference)

theorem empty_subset (a : DiffMask) : empty ⊆ a := by
  intro difference h
  rw [contains_empty] at h
  cases h

theorem subset_antisymm (h : a ⊆ b) (h' : b ⊆ a) : a = b :=
  ext_contains fun difference => Bool.eq_iff_iff.2 ⟨h difference, h' difference⟩

theorem mem_all (difference : Difference) : difference ∈ Difference.all := by
  cases difference <;> decide

theorem testBit_foldr_iff (differences : List Difference) :
    (differences.foldr (fun difference bits => 1 <<< difference.bit ||| bits) 0).testBit place =
        true ↔ ∃ difference ∈ differences, difference.bit = place := by
  induction differences with
  | nil => simp
  | cons first differences ih =>
    rw [List.foldr_cons, Nat.testBit_or, Bool.or_eq_true, ih, Nat.one_shiftLeft,
      Nat.testBit_two_pow, decide_eq_true_iff]
    simp

theorem testBit_bits_iff :
    a.bits.testBit place = true ↔
      ∃ difference, a.contains difference = true ∧ difference.bit = place := by
  rw [bits, testBit_foldr_iff]
  simp [toList, mem_all]

theorem find?_bit (difference : Difference) :
    Difference.all.find? (·.bit = difference.bit) = some difference := by
  cases difference <;> rfl

/-- No two differences share a bit, so each one is read off its own. -/
theorem testBit_bit_iff : a.bits.testBit difference.bit = true ↔ a.contains difference = true := by
  rw [testBit_bits_iff]
  constructor
  · intro h
    obtain ⟨found, hfound, hbit⟩ := h
    have hsame := find?_bit found
    rw [hbit, find?_bit] at hsame
    rw [Option.some.inj hsame]
    exact hfound
  · intro h
    exact ⟨difference, h, rfl⟩

variable {model : PermissionModel} {key other third : Key}

/-- Two keys differ in an aspect exactly when it counts and is not the same. -/
theorem contains_ofKeys_iff :
    (ofKeys model key other).contains difference = true ↔
      model.counts difference = true ∧ key.aspect difference ≠ other.aspect difference := by
  cases difference with
  | name | owner | comment => exact bne_iff_ne.trans (and_iff_right rfl).symm
  | value =>
    rw [contains, value_ofKeys]
    exact bne_iff_ne.trans (and_iff_right rfl).symm
  | uid | gid | mode => exact Bool.and_eq_true_iff.trans (and_congr_right' bne_iff_ne)
  | presence =>
    constructor
    · intro h
      cases h
    · intro h
      exact absurd rfl h.2

/-- An aspect that is not the same at both ends changes on one part of the way. -/
theorem ofKeys_triangle (model : PermissionModel) (key other third : Key) :
    ofKeys model key third ⊆ ofKeys model key other ∪ ofKeys model other third := by
  intro difference h
  obtain ⟨hcounts, hends⟩ := contains_ofKeys_iff.1 h
  rw [contains_union, Bool.or_eq_true, contains_ofKeys_iff, contains_ofKeys_iff]
  by_cases hfirst : key.aspect difference = other.aspect difference
  · rw [hfirst] at hends
    exact .inr ⟨hcounts, hends⟩
  · exact .inl ⟨hcounts, hfirst⟩

theorem testBit_diff_eq_false_iff (h : model.counts difference = true) :
    (diff model (some key) (some other)).bits.testBit difference.bit = false ↔
      key.aspect difference = other.aspect difference := by
  rw [← Bool.not_eq_true, testBit_bit_iff, diff, contains_ofKeys_iff, and_iff_right h, not_not]

end DiffMask

namespace Key

variable {key other : Key}

open DiffMask (diff fields)

end Key

end Keyspace
