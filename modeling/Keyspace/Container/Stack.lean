import Keyspace.Container.Basic

namespace Keyspace

/-- The last item in is the first one out. -/
def Discipline.lifo (α : Type) : Discipline α where
  noun := "stack"
  place := Array.push
  next? := Array.back?
  take? items := items.back?.map fun item => (item, items.pop)

abbrev Stack (α : Type) := Container (Discipline.lifo α)

namespace Stack

variable {α : Type}

/-- Puts an item on top, before which a full stack grows. -/
def push (stack : Stack α) (item : α) : Stack α × Option CapacityChange :=
  Container.insert stack item

/-- Takes the top item off, after which a stack that is left sparse shrinks. -/
def pop (stack : Stack α) : Except ContainerError (α × Stack α × Option CapacityChange) :=
  Container.remove stack

def peek? (stack : Stack α) : Option α :=
  Container.next? stack

@[simp] theorem items_push (stack : Stack α) (item : α) :
    (stack.push item).1.items = stack.items.push item :=
  rfl

@[simp] theorem peek?_eq (stack : Stack α) : stack.peek? = stack.items.back? :=
  rfl

theorem peek?_push (stack : Stack α) (item : α) : (stack.push item).1.peek? = some item :=
  Array.back?_push

theorem take?_push (items : Array α) (item : α) :
    (Discipline.lifo α).take? (items.push item) = some (item, items) := by
  simp [Discipline.lifo]

/-- What was pushed last is popped first, and leaves the items that were there before. -/
theorem pop_push (stack : Stack α) (item : α) :
    ∃ rest change, (stack.push item).1.pop = .ok (item, rest, change) ∧
      rest.items = stack.items := by
  rw [pop, Container.remove, items_push, take?_push]
  exact ⟨_, _, rfl, rfl⟩

end Stack

end Keyspace
