import Keyspace.Container.Rounds
import Keyspace.Proofs.Container.Sift

namespace Keyspace.Sift

variable {α : Type} {n : Nat}

theorem Ends.unique {round : Array α → Nat → Round α} {items last other : Array α} {i : Nat}
    (h : Ends round items i last) (hother : Ends round items i other) : last = other := by
  induction h with
  | stop h =>
    cases hother with
    | stop => rfl
    | move h' => cases h.symm.trans h'
  | move h hrest ih =>
    cases hother with
    | stop h' => cases h.symm.trans h'
    | move h' hrest' =>
      cases h.symm.trans h'
      exact ih hrest'

theorem Ends.iff_eq {round : Array α → Nat → Round α} {items last other : Array α} {i : Nat}
    (h : Ends round items i last) : Ends round items i other ↔ other = last := by
  constructor
  · intro hother
    exact hother.unique h
  · rintro rfl
    exact h

theorem getElem?_toArray (items : Vector α n) (i : Fin n) :
    items.toArray[i.val]? = some (items.get i) := by
  rw [Vector.getElem?_toArray, Vector.getElem?_eq_getElem i.isLt]
  rfl

theorem swapRound_toArray (items : Vector α n) (i j : Fin n) :
    swapRound items.toArray i j = .move (items.swap i j i.isLt j.isLt).toArray j := by
  have hbounds : i.val < items.toArray.size ∧ j.val < items.toArray.size := by
    rw [items.size_toArray]
    exact ⟨i.isLt, j.isLt⟩
  rw [swapRound, dif_pos hbounds, Vector.toArray_swap]

variable {higher : α → α → Bool} {items : Vector α n} {i child : Fin n}

theorem upRound_toArray (hroot : ¬i.val = 0) {above : Fin n}
    (habove : above.val = (i.val - 1) / 2) :
    upRound higher items.toArray i =
      if higher (items.get i) (items.get above) then
        .move (items.swap i above i.isLt above.isLt).toArray above
      else .stop := by
  rw [upRound, if_neg hroot, ← habove, getElem?_toArray, getElem?_toArray, swapRound_toArray]

theorem firstOfPair_toArray (h : firstChild higher items i = some child) :
    2 * i.val + 1 < items.toArray.size ∧
      firstOfPair higher items.toArray (2 * i.val + 1) = some child.val := by
  rw [items.size_toArray, firstOfPair, items.size_toArray]
  rw [firstChild] at h
  split at h
  · rename_i hleft
    split at h
    · rename_i hright
      have hitem := getElem?_toArray items ⟨2 * i.val + 1, hleft⟩
      have hneighbour := getElem?_toArray items ⟨2 * i.val + 2, hright⟩
      rw [if_pos hright, hitem, hneighbour]
      split at h
      · rename_i hhigher
        cases h
        exact ⟨hleft, congrArg some (if_pos hhigher)⟩
      · rename_i hlower
        cases h
        exact ⟨hleft, congrArg some (if_neg hlower)⟩
    · rename_i hright
      cases h
      exact ⟨hleft, if_neg hright⟩
  · cases h

theorem downRound_of_none (h : firstChild higher items i = none) :
    downRound higher items.toArray i = .stop := by
  rw [downRound, if_neg]
  intro hleft
  rw [items.size_toArray] at hleft
  exact not_isChild_of_firstChild h ⟨2 * i.val + 1, hleft⟩ (.inl rfl)

theorem downRound_of_some (h : firstChild higher items i = some child) :
    downRound higher items.toArray i =
      if higher (items.get child) (items.get i) then
        .move (items.swap i child i.isLt child.isLt).toArray child
      else .stop := by
  obtain ⟨hleft, hfirst⟩ := firstOfPair_toArray h
  rw [downRound, if_pos hleft, hfirst]
  dsimp only
  rw [getElem?_toArray, getElem?_toArray, swapRound_toArray]

theorem ends_up (higher : α → α → Bool) (items : Vector α n) (i : Fin n) :
    Ends (upRound higher) items.toArray i (up higher items i).toArray := by
  induction items, i using up.induct higher with
  | case1 items i hroot =>
    rw [up, dif_pos hroot]
    exact .stop (if_pos hroot)
  | case2 items i hroot parentLt above hhigher ih =>
    rw [up, dif_neg hroot, if_pos hhigher]
    exact .move ((upRound_toArray hroot rfl).trans (if_pos hhigher)) ih
  | case3 items i hroot parentLt above hlower =>
    rw [up, dif_neg hroot, if_neg hlower]
    exact .stop ((upRound_toArray hroot rfl).trans (if_neg hlower))

theorem ends_down (higher : α → α → Bool) (items : Vector α n) (i : Fin n) :
    Ends (downRound higher) items.toArray i (down higher items i).toArray := by
  induction items, i using down.induct higher with
  | case1 items i hnone =>
    rw [down_of_none hnone]
    exact .stop (downRound_of_none hnone)
  | case2 items i child hfirst childGt hhigher ih =>
    rw [down_of_higher hfirst hhigher]
    exact .move ((downRound_of_some hfirst).trans (if_pos hhigher)) ih
  | case3 items i child hfirst childGt hlower =>
    rw [down_of_not_higher hfirst hlower]
    exact .stop ((downRound_of_some hfirst).trans (if_neg hlower))

end Keyspace.Sift
