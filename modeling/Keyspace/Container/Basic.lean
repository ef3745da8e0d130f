import Keyspace.Container.Capacity
import Keyspace.Event

namespace Keyspace

/-- How a container keeps its items. -/
structure Discipline (α : Type) where
  noun : String
  place : Array α → α → Array α
  next? : Array α → Option α
  /-- The item that comes out, and the others. -/
  take? : Array α → Option (α × Array α)

/-- Items kept by a discipline, and their capacity. -/
structure Container {α : Type} (discipline : Discipline α) where
  items : Array α
  capacity : Capacity

inductive Direction
  | grow
  | shrink
  deriving DecidableEq, Repr

def Direction.word : Direction → String
  | .grow => "grow"
  | .shrink => "shrink"

/-- The report of a change of capacity, with the number of items at that moment. -/
structure CapacityChange where
  direction : Direction
  resize : Resize
  size : Nat
  deriving DecidableEq, Repr

def CapacityChange.record (change : CapacityChange) (noun : String) : LogRecord :=
  ⟨.trace, "capacity changed",
    [("container", .text noun), ("action", .text change.direction.word),
      ("from", .number change.resize.old), ("to", .number change.resize.new),
      ("len", .number change.size)]⟩

namespace Container

variable {α : Type} {discipline : Discipline α}

def ofInitial (discipline : Discipline α) (initial : Nat) :
    Except ContainerError (Container discipline) :=
  (Capacity.ofInitial initial).map fun capacity => ⟨#[], capacity⟩

def size (container : Container discipline) : Nat :=
  container.items.size

def isEmpty (container : Container discipline) : Bool :=
  container.items.isEmpty

def next? (container : Container discipline) : Option α :=
  discipline.next? container.items

/-- Puts an item in, before which a full container grows. -/
def insert (container : Container discipline) (item : α) :
    Container discipline × Option CapacityChange :=
  let (capacity, resize) := container.capacity.beforeInsert container.size
  (⟨discipline.place container.items item, capacity⟩,
    resize.map fun resize => ⟨.grow, resize, container.size⟩)

/-- Takes an item out, after which a container that is left sparse shrinks. -/
def remove (container : Container discipline) :
    Except ContainerError (α × Container discipline × Option CapacityChange) :=
  match discipline.take? container.items with
  | none => .error .empty
  | some (item, items) =>
    let (capacity, resize) := container.capacity.afterRemove items.size
    .ok (item, ⟨items, capacity⟩, resize.map fun resize => ⟨.shrink, resize, items.size⟩)

end Container

end Keyspace
