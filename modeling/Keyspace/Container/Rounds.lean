namespace Keyspace.Sift

variable {α : Type}

/-- What one round of a loop over an array comes to. -/
inductive Round (α : Type)
  /-- A position outside the array was accessed. -/
  | outOfBounds
  | stop
  | move (items : Array α) (i : Nat)

/-- The loop comes to an end with the last items, and no round of it leaves the array. -/
inductive Ends (round : Array α → Nat → Round α) : Array α → Nat → Array α → Prop
  | stop {items : Array α} {i : Nat} (h : round items i = .stop) : Ends round items i items
  | move {items next last : Array α} {i j : Nat} (h : round items i = .move next j)
      (hrest : Ends round next j last) : Ends round items i last

/-- Swaps two items and goes on from the second position. -/
def swapRound (items : Array α) (i j : Nat) : Round α :=
  if h : i < items.size ∧ j < items.size then .move (items.swap i j h.1 h.2) j else .outOfBounds

/-- A round of moving up: an item that is higher than its parent changes places with it. -/
def upRound (higher : α → α → Bool) (items : Array α) (i : Nat) : Round α :=
  if i = 0 then .stop
  else
    match items[i]?, items[(i - 1) / 2]? with
    | some item, some parent =>
      if higher item parent then swapRound items i ((i - 1) / 2) else .stop
    | _, _ => .outOfBounds

/-- The position, of a left child and its neighbour, whose item is to leave first. -/
def firstOfPair (higher : α → α → Bool) (items : Array α) (left : Nat) : Option Nat :=
  if left + 1 < items.size then
    match items[left + 1]?, items[left]? with
    | some a, some b => some (if higher a b then left + 1 else left)
    | _, _ => none
  else some left

/-- A round of moving down: an item changes places with its first child if that one is higher. -/
def downRound (higher : α → α → Bool) (items : Array α) (i : Nat) : Round α :=
  if 2 * i + 1 < items.size then
    match firstOfPair higher items (2 * i + 1) with
    | none => .outOfBounds
    | some child =>
      match items[child]?, items[i]? with
      | some a, some b => if higher a b then swapRound items i child else .stop
      | _, _ => .outOfBounds
  else .stop

end Keyspace.Sift
