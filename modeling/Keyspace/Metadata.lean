namespace Keyspace

/-- Named texts, the oldest name first. -/
structure Metadata where
  entries : List (String × String) := []
  deriving DecidableEq, Repr

namespace Metadata

def binaryMarker : String := "binary"

def ownerName : String := "owner"

def commentName : String := "comment"

def names (metadata : Metadata) : List String :=
  metadata.entries.map (·.1)

def get? (metadata : Metadata) (name : String) : Option String :=
  metadata.entries.lookup name

def contains (metadata : Metadata) (name : String) : Bool :=
  (metadata.get? name).isSome

/-- Writes a text to its name, which keeps its place, or to a new place at the end. -/
def write (name text : String) : List (String × String) → List (String × String)
  | [] => [(name, text)]
  | entry :: entries =>
    if entry.1 = name then (name, text) :: entries else entry :: write name text entries

def set (metadata : Metadata) (name text : String) : Metadata :=
  ⟨write name text metadata.entries⟩

def setIfMissing (metadata : Metadata) (name text : String) : Metadata :=
  if metadata.contains name then metadata else metadata.set name text

def erase (metadata : Metadata) (name : String) : Metadata :=
  ⟨metadata.entries.filter (·.1 ≠ name)⟩

end Metadata

end Keyspace
