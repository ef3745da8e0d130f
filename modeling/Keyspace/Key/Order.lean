import Keyspace.Key.Basic

namespace Keyspace.Key

/-- The first key has the smaller name in the order of bytes, where none is the smallest. -/
def nameBefore (a b : Key) : Bool :=
  Text.before a.nameText b.nameText

/-- The second key lies strictly below the first one. -/
def isAbove (a b : Key) : Bool :=
  (a.relation b).isBelow

/-- The first key has the earlier namespace, where none is the earliest. -/
def spaceBefore (a b : Key) : Bool :=
  match a.name, b.name with
  | none, some _ => true
  | some a, some b => decide (a.space.rank < b.space.rank)
  | _, none => false

end Keyspace.Key
