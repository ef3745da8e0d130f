namespace Keyspace

/-- The owner, the group and the mode bits of a key. -/
structure Permissions where
  uid : UInt32 := 0
  gid : UInt32 := 0
  /-- A new key is read by all and written by its owner and group. -/
  mode : UInt32 := 0o664
  deriving DecidableEq, Repr

/-- Whether permissions mean anything in an environment. -/
inductive PermissionModel
  | posix
  | unsupported
  deriving DecidableEq, Repr

namespace PermissionModel

def host : PermissionModel := posix

def compares : PermissionModel → Bool
  | posix => true
  | unsupported => false

end PermissionModel

end Keyspace
