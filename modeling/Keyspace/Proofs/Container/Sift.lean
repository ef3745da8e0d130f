import Mathlib.Order.Defs.Unbundled
import Keyspace.Container.Sift

namespace Keyspace

variable {α : Type} {higher : α → α → Bool}

/-- The relation ranks items up to ties: being neither higher nor lower is a tie. -/
abbrev Priority.Ranks (higher : α → α → Bool) : Prop :=
  IsStrictWeakOrder α fun a b => higher a b = true

namespace Priority.Ranks

theorem not_higher_self (h : Ranks higher) (a : α) : higher a a = false :=
  Bool.eq_false_iff.2 (h.irrefl a)

theorem not_higher_of_higher (h : Ranks higher) {a b : α} (hab : higher a b = true) :
    higher b a = false := by
  rw [Bool.eq_false_iff]
  intro hba
  exact h.irrefl a (h.trans a b a hab hba)

theorem not_higher_trans (h : Ranks higher) {a b c : α} (hab : higher a b = false)
    (hbc : higher b c = false) : higher a c = false := by
  rw [Bool.eq_false_iff] at hab hbc ⊢
  intro hac
  have hba : ¬higher b a = true := fun hba => hbc (h.trans b a c hba hac)
  have hcb : ¬higher c b = true := fun hcb => hab (h.trans a c b hac hcb)
  exact (h.incomp_trans a b c ⟨hab, hba⟩ ⟨hbc, hcb⟩).1 hac

end Priority.Ranks

namespace Sift

variable {n : Nat} {items : Vector α n} {i child parent : Fin n}

/-- The first position stands directly below the second one. -/
def IsChild (child parent : Fin n) : Prop :=
  child.val = 2 * parent.val + 1 ∨ child.val = 2 * parent.val + 2

/-- No item is higher than the one directly above it. -/
def Ordered (higher : α → α → Bool) (items : Vector α n) : Prop :=
  ∀ child parent : Fin n, IsChild child parent →
    higher (items.get child) (items.get parent) = false

/-- The items are in order but for one, which may be higher than its parent. -/
structure Rising (higher : α → α → Bool) (items : Vector α n) (i : Fin n) : Prop where
  others : ∀ child parent : Fin n, IsChild child parent → child ≠ i →
    higher (items.get child) (items.get parent) = false
  across : ∀ child parent : Fin n, IsChild child i → IsChild i parent →
    higher (items.get child) (items.get parent) = false

/-- The items are in order but for one, which may be lower than its children. -/
structure Sinking (higher : α → α → Bool) (items : Vector α n) (i : Fin n) : Prop where
  others : ∀ child parent : Fin n, IsChild child parent → parent ≠ i →
    higher (items.get child) (items.get parent) = false
  across : ∀ child parent : Fin n, IsChild child i → IsChild i parent →
    higher (items.get child) (items.get parent) = false

theorem IsChild.lt (h : IsChild child parent) : parent < child := by
  rw [IsChild] at h
  omega

theorem IsChild.ne (h : IsChild child parent) : parent ≠ child :=
  Fin.ne_of_lt h.lt

theorem IsChild.parent_unique {other : Fin n} (h : IsChild child parent)
    (hother : IsChild child other) : parent = other := by
  rw [IsChild] at h hother
  omega

theorem isChild_above (h : ¬i.val = 0) :
    IsChild i ⟨(i.val - 1) / 2, by omega⟩ := by
  rw [IsChild]
  dsimp only
  omega

theorem get_swap_left (items : Vector α n) (i j : Fin n) :
    (items.swap i j i.isLt j.isLt).get i = items.get j :=
  Vector.getElem_swap_left i.isLt j.isLt

theorem get_swap_right (items : Vector α n) (i j : Fin n) :
    (items.swap i j i.isLt j.isLt).get j = items.get i :=
  Vector.getElem_swap_right i.isLt j.isLt

theorem get_swap_of_ne (items : Vector α n) {i j k : Fin n} (hi : k ≠ i) (hj : k ≠ j) :
    (items.swap i j i.isLt j.isLt).get k = items.get k :=
  Vector.getElem_swap_of_ne (Fin.val_ne_of_ne hi) (Fin.val_ne_of_ne hj)

theorem Rising.swap (hranks : Priority.Ranks higher) (h : Rising higher items i)
    (hparent : IsChild i parent) (hhigher : higher (items.get i) (items.get parent) = true) :
    Rising higher (items.swap i parent i.isLt parent.isLt) parent := by
  have hlower := hranks.not_higher_of_higher hhigher
  constructor
  case others =>
    intro child top hchild hmoved
    by_cases hi : child = i
    · subst hi
      obtain rfl := hparent.parent_unique hchild
      rwa [get_swap_left, get_swap_right]
    rw [get_swap_of_ne items hi hmoved]
    by_cases htop : top = i
    · subst htop
      rw [get_swap_left]
      exact h.across child parent hchild hparent
    -- a sibling now stands below the item that has overtaken its old parent
    by_cases hsibling : top = parent
    · subst hsibling
      rw [get_swap_right]
      exact hranks.not_higher_trans (h.others child top hchild hi) hlower
    rw [get_swap_of_ne items htop hsibling]
    exact h.others child top hchild hi
  case across =>
    intro child top hchild htop
    have habove : higher (items.get parent) (items.get top) = false :=
      h.others parent top htop hparent.ne
    rw [get_swap_of_ne items (Fin.ne_of_lt (Fin.lt_trans htop.lt hparent.lt)) htop.ne]
    by_cases hi : child = i
    · subst hi
      rwa [get_swap_left]
    · rw [get_swap_of_ne items hi hchild.ne.symm]
      exact hranks.not_higher_trans (h.others child parent hchild hi) habove

theorem Rising.ordered (h : Rising higher items i)
    (hstop : ∀ parent : Fin n, IsChild i parent → higher (items.get i) (items.get parent) = false) :
    Ordered higher items := by
  intro child parent hchild
  by_cases hi : child = i
  · subst hi
    exact hstop parent hchild
  · exact h.others child parent hchild hi

theorem Sinking.swap (hranks : Priority.Ranks higher) (h : Sinking higher items i)
    (hchild : IsChild child i) (hhigher : higher (items.get child) (items.get i) = true)
    (hfirst : ∀ other : Fin n, IsChild other i →
      higher (items.get other) (items.get child) = false) :
    Sinking higher (items.swap i child i.isLt child.isLt) child := by
  have hlower := hranks.not_higher_of_higher hhigher
  constructor
  case others =>
    intro lower top hbelow hmoved
    by_cases hi : lower = i
    · subst hi
      rw [get_swap_left, get_swap_of_ne items hbelow.ne hmoved]
      exact h.across child top hchild hbelow
    by_cases hfilled : lower = child
    · subst hfilled
      obtain rfl := hchild.parent_unique hbelow
      rwa [get_swap_left, get_swap_right]
    rw [get_swap_of_ne items hi hfilled]
    by_cases htop : top = i
    · subst htop
      rw [get_swap_left]
      exact hfirst lower hbelow
    · rw [get_swap_of_ne items htop hmoved]
      exact h.others lower top hbelow htop
  case across =>
    intro lower top hbelow htop
    obtain rfl := hchild.parent_unique htop
    have hdeeper := Fin.ne_of_gt (Fin.lt_trans hchild.lt hbelow.lt)
    rw [get_swap_left, get_swap_of_ne items hdeeper hbelow.ne.symm]
    exact h.others lower child hbelow hchild.ne.symm

theorem Sinking.ordered (h : Sinking higher items i)
    (hstop : ∀ child : Fin n, IsChild child i → higher (items.get child) (items.get i) = false) :
    Ordered higher items := by
  intro child parent hchild
  by_cases hi : parent = i
  · subst hi
    exact hstop child hchild
  · exact h.others child parent hchild hi

theorem not_isChild_of_firstChild (h : firstChild higher items i = none) (child : Fin n) :
    ¬IsChild child i := by
  rw [firstChild] at h
  rw [IsChild]
  split at h
  · split at h
    · split at h
      · cases h
      · cases h
    · cases h
  · omega

theorem isChild_of_firstChild (h : firstChild higher items i = some child) : IsChild child i := by
  rw [firstChild] at h
  split at h
  · split at h
    · split at h
      · cases h
        exact .inr rfl
      · cases h
        exact .inl rfl
    · cases h
      exact .inl rfl
  · cases h

theorem not_higher_firstChild (hranks : Priority.Ranks higher)
    (h : firstChild higher items i = some child) {other : Fin n} (hother : IsChild other i) :
    higher (items.get other) (items.get child) = false := by
  obtain ⟨position, hposition⟩ := other
  rw [firstChild] at h
  split at h
  · split at h
    · split at h
      · rename_i hhigher
        cases h
        obtain rfl | rfl := hother
        · exact hranks.not_higher_of_higher hhigher
        · exact hranks.not_higher_self _
      · rename_i hlower
        cases h
        obtain rfl | rfl := hother
        · exact hranks.not_higher_self _
        · exact Bool.eq_false_iff.2 hlower
    · rename_i hlast
      cases h
      obtain rfl | rfl := hother
      · exact hranks.not_higher_self _
      · exact (hlast hposition).elim
  · cases h

theorem down_of_none (h : firstChild higher items i = none) : down higher items i = items := by
  rw [down]
  split
  · rfl
  · rename_i child hsome
    rw [h] at hsome
    cases hsome

theorem down_of_higher (hfirst : firstChild higher items i = some child)
    (hhigher : higher (items.get child) (items.get i) = true) :
    down higher items i = down higher (items.swap i child i.isLt child.isLt) child := by
  rw [down]
  split
  · rename_i hnone
    rw [hfirst] at hnone
    cases hnone
  · rename_i found hfound
    obtain rfl : child = found := Option.some.inj (hfirst.symm.trans hfound)
    exact if_pos hhigher

theorem down_of_not_higher (hfirst : firstChild higher items i = some child)
    (hlower : ¬higher (items.get child) (items.get i) = true) : down higher items i = items := by
  rw [down]
  split
  · rfl
  · rename_i found hfound
    obtain rfl : child = found := Option.some.inj (hfirst.symm.trans hfound)
    exact if_neg hlower

theorem up_ordered (hranks : Priority.Ranks higher) (h : Rising higher items i) :
    Ordered higher (up higher items i) := by
  induction items, i using up.induct higher with
  | case1 items i hroot =>
    rw [up, dif_pos hroot]
    refine h.ordered fun parent hparent => ?_
    rw [IsChild] at hparent
    omega
  | case2 items i hroot parentLt above hhigher ih =>
    rw [up, dif_neg hroot, if_pos hhigher]
    exact ih (h.swap hranks (isChild_above hroot) hhigher)
  | case3 items i hroot parentLt above hlower =>
    rw [up, dif_neg hroot, if_neg hlower]
    refine h.ordered fun parent hparent => ?_
    obtain rfl := hparent.parent_unique (isChild_above hroot)
    exact Bool.eq_false_iff.2 hlower

theorem down_ordered (hranks : Priority.Ranks higher) (h : Sinking higher items i) :
    Ordered higher (down higher items i) := by
  induction items, i using down.induct higher with
  | case1 items i hnone =>
    rw [down_of_none hnone]
    exact h.ordered fun child hchild => (not_isChild_of_firstChild hnone child hchild).elim
  | case2 items i child hfirst childGt hhigher ih =>
    rw [down_of_higher hfirst hhigher]
    have hbest (other : Fin n) (hother : IsChild other i) :
        higher (items.get other) (items.get child) = false :=
      not_higher_firstChild hranks hfirst hother
    exact ih (h.swap hranks (isChild_of_firstChild hfirst) hhigher hbest)
  | case3 items i child hfirst childGt hlower =>
    rw [down_of_not_higher hfirst hlower]
    refine h.ordered fun other hother => ?_
    exact hranks.not_higher_trans (not_higher_firstChild hranks hfirst hother)
      (Bool.eq_false_iff.2 hlower)

/-- The item at the root is the extreme one of an ordered heap. -/
theorem Ordered.not_higher_root (hranks : Priority.Ranks higher) (h : Ordered higher items)
    (hpos : 0 < n) (i : Fin n) : higher (items.get i) (items.get ⟨0, hpos⟩) = false := by
  obtain ⟨position, hposition⟩ := i
  -- along the path to the root
  induction position using Nat.strongRecOn with
  | ind position ih =>
    by_cases hroot : position = 0
    · subst hroot
      exact hranks.not_higher_self _
    · have habove : (position - 1) / 2 < position := by omega
      have hparent := h ⟨position, hposition⟩ _ (isChild_above hroot)
      exact hranks.not_higher_trans hparent (ih _ habove (Nat.lt_trans habove hposition))

theorem up_perm (higher : α → α → Bool) (items : Vector α n) (i : Fin n) :
    (up higher items i).Perm items := by
  induction items, i using up.induct higher with
  | case1 items i hroot =>
    rw [up, dif_pos hroot]
  | case2 items i hroot parentLt above hhigher ih =>
    rw [up, dif_neg hroot, if_pos hhigher]
    exact ih.trans (Vector.swap_perm _ _)
  | case3 items i hroot parentLt above hlower =>
    rw [up, dif_neg hroot, if_neg hlower]

theorem down_perm (higher : α → α → Bool) (items : Vector α n) (i : Fin n) :
    (down higher items i).Perm items := by
  induction items, i using down.induct higher with
  | case1 items i hnone =>
    rw [down_of_none hnone]
  | case2 items i child hfirst childGt hhigher ih =>
    rw [down_of_higher hfirst hhigher]
    exact ih.trans (Vector.swap_perm _ _)
  | case3 items i child hfirst childGt hlower =>
    rw [down_of_not_higher hfirst hlower]

end Sift

end Keyspace
