import Keyspace.Namespace
import Keyspace.Text.Utf8

namespace Keyspace

inductive Relation
  | invalid
  | same
  | directChild
  | descendant
  /-- Neither is below the other, but both are user keys or both are system keys. -/
  | sameHierarchyUnrelated
  | unrelated
  deriving DecidableEq, Repr

def Relation.isBelow : Relation → Bool
  | .directChild | .descendant => true
  | _ => false

def Relation.isSameOrBelow : Relation → Bool
  | .same | .directChild | .descendant => true
  | _ => false

namespace Name

/-- The second name lies strictly below the first one. -/
def hasBelow (base check : Name) : Bool :=
  (Text.utf8 base.escaped ++ Text.utf8 "/").isPrefixOf (Text.utf8 check.escaped)

/-- The second name lies below the first one or has the same text. -/
def hasSameOrBelow (base check : Name) : Bool :=
  base.hasBelow check || base.escaped == check.escaped

/-- The second name lies exactly one level below the first one. -/
def hasDirectlyBelow (base check : Name) : Bool :=
  base.hasBelow check && check.segments.length == base.segments.length + 1

/-- The two names share a namespace in which all keys belong together. -/
def sharesHierarchy (base check : Name) : Bool :=
  base.space == check.space && (base.space == .user || base.space == .system)

/-- Where the second name lies relative to the first one; the closest description wins. -/
def relation (base check : Name) : Relation :=
  if base.escaped = check.escaped then .same
  else if base.hasDirectlyBelow check then .directChild
  else if base.hasBelow check then .descendant
  else if base.sharesHierarchy check then .sameHierarchyUnrelated
  else .unrelated

theorem relation_ne_invalid (base check : Name) : base.relation check ≠ .invalid := by
  unfold relation
  split
  · simp
  · split
    · simp
    · split
      · simp
      · split
        · simp
        · simp

end Name

end Keyspace
