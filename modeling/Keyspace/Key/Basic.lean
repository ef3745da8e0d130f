import Keyspace.Metadata
import Keyspace.Name.Relation
import Keyspace.Permissions
import Keyspace.Value

namespace Keyspace

/-- One entry of a keyspace, at first without a name and in need of synchronisation. -/
structure Key where
  name : Option Name := none
  value : Value := .absent
  metadata : Metadata := {}
  permissions : Permissions := {}
  needsSync : Bool := true
  deriving DecidableEq, Repr

namespace Key

def nameless : Key := {}

def requireName (key : Key) : Except KeyError Name :=
  match key.name with
  | some name => .ok name
  | none => .error .nameless

/-- The text of the name, or nothing for a nameless key. -/
def nameText (key : Key) : String :=
  key.name.elim "" Name.escaped

def baseName (key : Key) : String :=
  key.name.elim "" Name.baseName

def space (key : Key) : Except KeyError Namespace :=
  key.requireName.map Name.space

def isIn (key : Key) (space : Namespace) : Except KeyError Bool :=
  key.requireName.map (·.space == space)

def isInactive (key : Key) : Except KeyError Bool :=
  key.requireName.map Name.isInactive

def isBinary (key : Key) : Bool :=
  key.metadata.contains Metadata.binaryMarker

def isText (key : Key) : Bool :=
  !key.isBinary

/-- The value as a text, which a value that was never set also is. -/
def text (key : Key) : Except KeyError String :=
  match key.value with
  | .text content => .ok content
  | .absent => if key.isBinary then .error .notText else .ok ""
  | .binary _ => .error .notText

def binary? (key : Key) : Option (List UInt8) :=
  match key.value with
  | .binary content => some content
  | _ => none

def owner (key : Key) : String :=
  (key.metadata.get? Metadata.ownerName).getD ""

def comment (key : Key) : String :=
  (key.metadata.get? Metadata.commentName).getD ""

/-- Asks a question about the names of two keys. -/
def askNames {α : Type} (question : Name → Name → α) (base check : Key) : Except KeyError α :=
  match base.name, check.name with
  | some base, some check => .ok (question base check)
  | _, _ => .error .nameless

def hasBelow : Key → Key → Except KeyError Bool :=
  askNames Name.hasBelow

/-- The second key lies below the first one or has the same name. -/
def hasSameOrBelow : Key → Key → Except KeyError Bool :=
  askNames Name.hasSameOrBelow

/-- The second key lies exactly one level below the first one. -/
def hasDirectlyBelow : Key → Key → Except KeyError Bool :=
  askNames Name.hasDirectlyBelow

def relation (base check : Key) : Relation :=
  match base.name, check.name with
  | some base, some check => base.relation check
  | _, _ => .invalid

theorem askNames_of_names {α : Type} (question : Name → Name → α) {base check : Key}
    {baseName checkName : Name} (hbase : base.name = some baseName)
    (hcheck : check.name = some checkName) :
    askNames question base check = .ok (question baseName checkName) := by
  simp [askNames, hbase, hcheck]

theorem nameless_of_not_both {base check : Key}
    (h : ∀ baseName checkName, base.name = some baseName → check.name = some checkName → False) :
    base.name = none ∨ check.name = none := by
  cases hbase : base.name with
  | none => exact .inl rfl
  | some baseName =>
    cases hcheck : check.name with
    | none => exact .inr rfl
    | some checkName => exact (h baseName checkName hbase hcheck).elim

theorem askNames_eq_nameless_iff {α : Type} (question : Name → Name → α) (base check : Key) :
    askNames question base check = .error .nameless ↔ base.name = none ∨ check.name = none := by
  unfold askNames
  split
  · simp_all
  · rename_i hnone
    exact iff_of_true rfl (nameless_of_not_both hnone)

theorem relation_of_names {base check : Key} {baseName checkName : Name}
    (hbase : base.name = some baseName) (hcheck : check.name = some checkName) :
    base.relation check = baseName.relation checkName := by
  simp [relation, hbase, hcheck]

theorem relation_eq_invalid_iff (base check : Key) :
    base.relation check = .invalid ↔ base.name = none ∨ check.name = none := by
  unfold relation
  split
  · rename_i hbase hcheck
    simp [hbase, hcheck, Name.relation_ne_invalid]
  · rename_i hnone
    exact iff_of_true rfl (nameless_of_not_both hnone)

end Key

end Keyspace
