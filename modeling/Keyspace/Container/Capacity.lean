namespace Keyspace

inductive ContainerError
  | invalidCapacity (requested : Nat)
  | empty
  deriving DecidableEq, Repr

def ContainerError.message : ContainerError → String
  | .invalidCapacity requested => s!"initial capacity must be positive, got {requested}"
  | .empty => "container is empty"

/-- A capacity, and the one that it started with. -/
structure Capacity where
  initial : Nat
  current : Nat
  deriving DecidableEq, Repr

structure Resize where
  old : Nat
  new : Nat
  deriving DecidableEq, Repr

namespace Capacity

def limit : Nat := UInt64.size - 1

/-- The factor by which a full container grows and a sparse one shrinks. -/
def growthFactor : Nat := 2

/-- A container is sparse when it holds at most its capacity divided by this number. -/
def sparseDivisor : Nat := 4

/-- The capacity of a new container, which must have room for an item. -/
def ofInitial (initial : Nat) : Except ContainerError Capacity :=
  if initial = 0 then .error (.invalidCapacity initial) else .ok ⟨initial, initial⟩

/-- Makes room for one more item beside `size` others. -/
def beforeInsert (capacity : Capacity) (size : Nat) : Capacity × Option Resize :=
  if size < capacity.current then (capacity, none)
  else
    let grown := min (capacity.current * growthFactor) limit
    ({ capacity with current := grown }, some ⟨capacity.current, grown⟩)

/-- Gives room back once a removal has left `size` items. -/
def afterRemove (capacity : Capacity) (size : Nat) : Capacity × Option Resize :=
  if capacity.current ≤ capacity.initial ∨ capacity.current / sparseDivisor < size then
    (capacity, none)
  else
    let shrunk := max (capacity.current / growthFactor) capacity.initial
    ({ capacity with current := shrunk }, some ⟨capacity.current, shrunk⟩)

/-- A question that a caller asks of a capacity. -/
inductive Call
  | insert (size : Nat)
  | remove (size : Nat)
  deriving DecidableEq, Repr

def call (capacity : Capacity) : Call → Capacity × Option Resize
  | .insert size => capacity.beforeInsert size
  | .remove size => capacity.afterRemove size

def callAll (capacity : Capacity) : List Call → Capacity × List (Option Resize)
  | [] => (capacity, [])
  | call :: calls =>
    let (called, resize) := capacity.call call
    let (final, resizes) := called.callAll calls
    (final, resize :: resizes)

end Capacity

end Keyspace
