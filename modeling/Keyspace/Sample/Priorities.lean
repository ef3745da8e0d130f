import Keyspace.Container.Heap
import Keyspace.Container.Run

namespace Keyspace.Sample

/-- The scattered number of an index, from 64-bit arithmetic without its low 16 bits. -/
def scatter (seed index : UInt64) : Nat :=
  ((seed * 6364136223846793005 + index * 1442695040888963407) >>> 16).toNat

def scatteredPriorities (count : Nat) (seed : UInt64) : List Nat :=
  (List.range count).map fun index => scatter seed index.toUInt64

/-- What comes out of a heap that hands out the smallest number first, and its last capacity. -/
def heapSort (initial : Nat) (numbers : List Nat) : Except ContainerError (List Nat × Nat) := do
  let heap ← Container.ofInitial (Discipline.priority fun a b : Nat => decide (a < b)) initial
  let (full, _) := heap.run (numbers.map .insert)
  let (final, replies) := full.drain
  return (replies.filterMap Reply.item?, final.capacity.current)

end Keyspace.Sample
