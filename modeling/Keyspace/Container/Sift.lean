namespace Keyspace.Sift

variable {α : Type} {n : Nat}

/-- The child of a position that is to leave first: the left one unless the right one is higher. -/
def firstChild (higher : α → α → Bool) (items : Vector α n) (i : Fin n) : Option (Fin n) :=
  if left : 2 * i.val + 1 < n then
    if right : 2 * i.val + 2 < n then
      if higher items[2 * i.val + 2] items[2 * i.val + 1] then some ⟨2 * i.val + 2, right⟩
      else some ⟨2 * i.val + 1, left⟩
    else some ⟨2 * i.val + 1, left⟩
  else none

theorem lt_of_firstChild {higher : α → α → Bool} {items : Vector α n} {i child : Fin n}
    (h : firstChild higher items i = some child) : i < child := by
  simp only [firstChild] at h
  split at h
  · split at h
    · split at h
      all_goals
        cases h
        exact Fin.lt_def.2 (by dsimp only; omega)
    · cases h
      exact Fin.lt_def.2 (by dsimp only; omega)
  · cases h

/-- Moves an item towards the root while it is higher than its parent. -/
def up (higher : α → α → Bool) (items : Vector α n) (i : Fin n) : Vector α n :=
  if h : i.val = 0 then items
  else
    have parentLt : (i.val - 1) / 2 < i.val := by omega
    let parent : Fin n := ⟨(i.val - 1) / 2, Nat.lt_trans parentLt i.isLt⟩
    if higher items[i] items[parent] then up higher (items.swap i parent) parent else items
termination_by i.val

/-- Moves an item away from the root while its first child is higher. -/
def down (higher : α → α → Bool) (items : Vector α n) (i : Fin n) : Vector α n :=
  match h : firstChild higher items i with
  | none => items
  | some child =>
    have childGt : i < child := lt_of_firstChild h
    if higher items[child] items[i] then down higher (items.swap i child) child else items
termination_by n - i.val

end Keyspace.Sift
