import Keyspace.Key.Order
import Keyspace.Sample.Fixture

namespace Keyspace.Sample

/-- The children of a key, each named by a label and its number. -/
def children (label : String) (fanout : Nat) (parent : Key) : Attempt KeyError (List Key) :=
  (List.range fanout).mapM fun i => parent.addBaseName (label ++ toString i)

def nextLevel (label : String) (fanout : Nat) (level : List Key) :
    Attempt SampleError (List Key) := do
  let families ← level.mapM fun parent =>
    (children label fanout parent).mapError (.fixtureChild parent.nameText)
  pure families.flatten

/-- All keys down to a depth below a level, level by level. -/
def levelsBelow (label : String) (fanout : Nat) : Nat → List Key → Attempt SampleError (List Key)
  | 0, _ => pure []
  | _ + 1, [] => pure []
  | depth + 1, key :: keys => do
    let next ← nextLevel label fanout (key :: keys)
    let deeper ← levelsBelow label fanout depth next
    pure (next ++ deeper)

/-- A complete tree in the order of the names' bytes, with the children `n0`, `n1` and so on. -/
def sortedTree (root : String) (depth fanout : Nat) : Attempt SampleError (List Key) := do
  let top ← key root
  let seed ← key root
  let below ← levelsBelow "n" fanout depth [seed]
  pure ((top :: below).mergeSort fun a b => !b.nameBefore a)

/-- A key and everything down to a depth below it, each key before its children. -/
def subtree (label : String) (fanout : Nat) : Nat → Key → Attempt KeyError (List Key)
  | 0, top => pure [top]
  | depth + 1, top => do
    let heads ← children label fanout top
    let below ← heads.mapM (subtree label fanout depth)
    pure (top :: below.flatten)

/-- A complete tree, each key before its children `c0`, `c1` and so on. -/
def preorderTree (root : String) (depth fanout : Nat) : Attempt KeyError (List Key) := do
  let top ← Key.named root
  subtree "c" fanout depth top

end Keyspace.Sample
