import Keyspace.Name.Basic

namespace Keyspace

/-- The part of the keyspace that a name lies in. -/
inductive Namespace
  | cascading
  | spec
  | proc
  | dir
  | user
  | system
  deriving DecidableEq, Repr

namespace Namespace

def roots : List (String × Namespace) :=
  [("spec", spec), ("proc", proc), ("dir", dir), ("user", user), ("system", system)]

/-- A user root may name its owner behind a colon; every other root is taken whole. -/
def dropOwner (root : String) : String :=
  if root.toList.takeWhile (· ≠ ':') = "user".toList then "user" else root

/-- The namespace of a root segment, which is the cascading one if it selects none. -/
def ofRoot (root : String) : Namespace :=
  (roots.lookup (dropOwner root)).getD cascading

def root? (space : Namespace) : Option String :=
  (roots.find? (·.2 = space)).map (·.1)

def text (space : Namespace) : String :=
  space.root?.getD "/"

def rank : Namespace → Nat
  | cascading => 0
  | spec => 1
  | proc => 2
  | dir => 3
  | user => 4
  | system => 5

end Namespace

def Name.space (name : Name) : Namespace :=
  Namespace.ofRoot name.root

end Keyspace
