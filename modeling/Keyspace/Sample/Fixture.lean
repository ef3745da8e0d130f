import Keyspace.Key.Edit
import Keyspace.Text.Quoted

namespace Keyspace

inductive SampleError
  | fixtureName (text : String) (cause : KeyError)
  | fixtureChild (parent : String) (cause : KeyError)
  | root (text : String) (cause : KeyError)
  | segment (text : String) (cause : KeyError)
  deriving DecidableEq, Repr

def SampleError.message : SampleError → String
  | .fixtureName text cause => s!"fixture name {Text.quoted text}: {cause.message}"
  | .fixtureChild parent cause => s!"fixture child of {parent}: {cause.message}"
  | .root text cause => s!"root {Text.quoted text}: {cause.message}"
  | .segment text cause => s!"segment {Text.quoted text}: {cause.message}"

namespace Sample

def key (text : String) : Attempt SampleError Key :=
  (Key.named text).mapError (.fixtureName text)

/-- A key with a name and no value, as a loader hands it out. -/
def syncedKey (text : String) : Attempt SampleError Key := do
  let key ← key text
  key.clearSync

def appendSegments (key : Key) : List String → Attempt SampleError Key
  | [] => pure key
  | segment :: segments => do
    let child ← (key.addBaseName segment).mapError (.segment segment)
    appendSegments child segments

/-- The key at the end of a path of raw segments, where the empty root is the cascading one. -/
def keyOfSegments (root : String) (segments : List String) : Attempt SampleError Key := do
  let key ← (Key.named (if root = "" then "/" else root)).mapError (.root root)
  appendSegments key segments

end Sample

end Keyspace
