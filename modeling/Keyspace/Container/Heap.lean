import Keyspace.Container.Basic
import Keyspace.Container.Sift

namespace Keyspace

namespace Heap

variable {α : Type}

/-- Puts an item at the end and moves it up to its place. -/
def place (higher : α → α → Bool) (items : Array α) (item : α) : Array α :=
  (Sift.up higher (items.toVector.push item) (Fin.last items.size)).toArray

/-- The items without the root, whose place the last one takes. -/
def lastToRoot (items : Array α) : Array α :=
  (items.swapIfInBounds 0 (items.size - 1)).pop

/-- What is left without the root: the last item goes there and moves down to its place. -/
def withoutRoot (higher : α → α → Bool) (items : Array α) (nonempty : 0 < items.size) : Array α :=
  let others := (items.toVector.swap 0 (items.size - 1)).pop
  let restored :=
    if more : 0 < items.size - 1 then Sift.down higher others ⟨0, more⟩ else others
  restored.toArray

def take? (higher : α → α → Bool) (items : Array α) : Option (α × Array α) :=
  if nonempty : 0 < items.size then some (items[0], withoutRoot higher items nonempty) else none

end Heap

/-- Items that are higher come out first. -/
def Discipline.priority {α : Type} (higher : α → α → Bool) : Discipline α where
  noun := "heap"
  place := Heap.place higher
  next? items := items[0]?
  take? := Heap.take? higher

abbrev Heap {α : Type} (higher : α → α → Bool) := Container (Discipline.priority higher)

namespace Heap

variable {α : Type} {higher : α → α → Bool}

/-- Puts an item in at its place, before which a full heap grows. -/
def insert (heap : Heap higher) (item : α) : Heap higher × Option CapacityChange :=
  Container.insert heap item

/-- Takes the root out, after which a heap that is left sparse shrinks. -/
def removeExtreme (heap : Heap higher) :
    Except ContainerError (α × Heap higher × Option CapacityChange) :=
  Container.remove heap

def peek? (heap : Heap higher) : Option α :=
  Container.next? heap

@[simp] theorem items_insert (heap : Heap higher) (item : α) :
    (heap.insert item).1.items = place higher heap.items item :=
  rfl

@[simp] theorem peek?_eq (heap : Heap higher) : heap.peek? = heap.items[0]? :=
  rfl

end Heap

end Keyspace
