import Keyspace.Key.Edit

namespace Keyspace

/-- The parts of a key that is still to be built. -/
structure Draft where
  name : String
  value : Value := .absent
  metadata : List (String × String) := []
  permissions : Permissions := {}
  deriving DecidableEq, Repr

namespace Draft

inductive Part
  | text (content : String)
  | binary (content : List UInt8)
  | metadata (name text : String)
  | owner (owner : String)
  | comment (comment : String)
  | permissions (permissions : Permissions)
  deriving DecidableEq, Repr

def addMetadata (draft : Draft) (name text : String) : Draft :=
  { draft with metadata := draft.metadata ++ [(name, text)] }

/-- The draft with one more part, where a later value replaces the earlier one. -/
def add (draft : Draft) : Part → Draft
  | .text content => { draft with value := .text content }
  | .binary content => { draft with value := .binary content }
  | .metadata name text => draft.addMetadata name text
  | .owner owner => draft.addMetadata Metadata.ownerName owner
  | .comment comment => draft.addMetadata Metadata.commentName comment
  | .permissions permissions => { draft with permissions }

def ofParts (name : String) (parts : List Part) : Draft :=
  parts.foldl add { name }

def storeValue (key : Key) : Value → Attempt KeyError Key
  | .absent => pure key
  | .text content => key.setText content
  | .binary content => pure (key.setBinary content)

def storeMetadata (key : Key) : List (String × String) → Attempt KeyError Key
  | [] => pure key
  | (name, text) :: entries => do
    let key ← key.setMetadata name text
    storeMetadata key entries

/-- Builds the key from its name, its value and its metadata, in this order. -/
def build (draft : Draft) : Attempt KeyError Key := do
  let key ← Key.named draft.name
  let key ← storeValue key draft.value
  let key ← storeMetadata key draft.metadata
  pure { key with permissions := draft.permissions }

end Draft

end Keyspace
