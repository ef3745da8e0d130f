import Keyspace.Key.Basic

namespace Keyspace

/-- A way in which two keys can differ. -/
inductive Difference
  | name
  | value
  | owner
  | comment
  | uid
  | gid
  | mode
  /-- One of the two keys is missing. -/
  | presence
  deriving DecidableEq, Repr

namespace Difference

def all : List Difference :=
  [name, value, owner, comment, uid, gid, mode, presence]

def bit : Difference → Nat
  | name => 0
  | value => 1
  | owner => 2
  | comment => 3
  | uid => 4
  | gid => 5
  | mode => 6
  | presence => 31

def label : Difference → String
  | name => "NAME"
  | value => "VALUE"
  | owner => "OWNER"
  | comment => "COMMENT"
  | uid => "UID"
  | gid => "GID"
  | mode => "MODE"
  | presence => "NULL_MISMATCH"

/-- The difference is one between the fields of two keys that are both there. -/
def isField : Difference → Bool
  | presence => false
  | _ => true

end Difference

structure DiffMask where
  name : Bool
  value : Bool
  owner : Bool
  comment : Bool
  uid : Bool
  gid : Bool
  mode : Bool
  presence : Bool
  deriving DecidableEq, Repr

namespace DiffMask

def ofPred (property : Difference → Bool) : DiffMask where
  name := property .name
  value := property .value
  owner := property .owner
  comment := property .comment
  uid := property .uid
  gid := property .gid
  mode := property .mode
  presence := property .presence

def contains (mask : DiffMask) : Difference → Bool
  | .name => mask.name
  | .value => mask.value
  | .owner => mask.owner
  | .comment => mask.comment
  | .uid => mask.uid
  | .gid => mask.gid
  | .mode => mask.mode
  | .presence => mask.presence

def empty : DiffMask := ofPred fun _ => false

def full : DiffMask := ofPred fun _ => true

def fields : DiffMask := ofPred Difference.isField

def only (difference : Difference) : DiffMask := ofPred (· == difference)

def union (a b : DiffMask) : DiffMask :=
  ofPred fun difference => a.contains difference || b.contains difference

def inter (a b : DiffMask) : DiffMask :=
  ofPred fun difference => a.contains difference && b.contains difference

def compl (mask : DiffMask) : DiffMask :=
  ofPred fun difference => !mask.contains difference

def toList (mask : DiffMask) : List Difference :=
  Difference.all.filter mask.contains

def bits (mask : DiffMask) : Nat :=
  mask.toList.foldr (fun difference bits => 1 <<< difference.bit ||| bits) 0

/-- The mask of the bits that stand for a difference; other bits are left out. -/
def ofBits (bits : Nat) : DiffMask :=
  ofPred fun difference => bits.testBit difference.bit

/-- The mask of a number, if all its bits stand for differences. -/
def ofBits? (bits : Nat) : Option DiffMask :=
  if (ofBits bits).bits = bits then some (ofBits bits) else none

def labelled : List (String × DiffMask) :=
  Difference.all.map (fun difference => (difference.label, only difference)) ++ [("FIELDS", fields)]

def ofLabel? (label : String) : Option DiffMask :=
  labelled.lookup label

/-- The fields in which two keys differ, with permissions only where the model compares them. -/
def ofKeys (model : PermissionModel) (a b : Key) : DiffMask where
  name := a.nameText != b.nameText
  value := !(a.value.storedSize == b.value.storedSize &&
    a.value.storedBytes == b.value.storedBytes)
  owner := a.owner != b.owner
  comment := a.comment != b.comment
  uid := model.compares && a.permissions.uid != b.permissions.uid
  gid := model.compares && a.permissions.gid != b.permissions.gid
  mode := model.compares && a.permissions.mode != b.permissions.mode
  presence := false

def diff (model : PermissionModel) : Option Key → Option Key → DiffMask
  | none, none => empty
  | some a, some b => ofKeys model a b
  | _, _ => only .presence

theorem value_ofKeys (model : PermissionModel) (a b : Key) :
    (ofKeys model a b).value = (a.value.storedBytes != b.value.storedBytes) :=
  congrArg not (Value.storedSize_beq_and_storedBytes_beq a.value b.value)

theorem ofKeys_self (model : PermissionModel) (key : Key) : ofKeys model key key = empty := by
  simp [ofKeys, empty, ofPred]

end DiffMask

end Keyspace
