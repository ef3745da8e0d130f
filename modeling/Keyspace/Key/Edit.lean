import Keyspace.Attempt
import Keyspace.Key.Basic

namespace Keyspace

namespace Key

def touched (key : Key) : Key :=
  { key with needsSync := true }

def setName (key : Key) (text : String) : Attempt KeyError Key :=
  match Name.parse text with
  | .error error => .fail error
  | .ok name =>
    { outcome := .ok { key with name := some name }.touched
      events := if name.escaped = text then [] else [.nameCanonicalised text name.escaped] }

def named (text : String) : Attempt KeyError Key :=
  nameless.setName text

def addBaseName (key : Key) (segment : String) : Attempt KeyError Key :=
  match key.name with
  | none => .fail .nameless
  | some name =>
    match name.join segment with
    | .error error => .fail error
    | .ok joined => pure { key with name := some joined }.touched

/-- Stores a text, which must not hold a zero, and drops the binary marker. -/
def setText (key : Key) (content : String) : Attempt KeyError Key :=
  if '\x00' ∈ content.toList then .fail .embeddedNul
  else
    pure { key with
      value := .text content
      metadata := key.metadata.erase Metadata.binaryMarker }.touched

/-- Stores bytes and sets the binary marker if it is missing. -/
def setBinary (key : Key) (content : List UInt8) : Key :=
  { key with
    value := .binary content
    metadata := key.metadata.setIfMissing Metadata.binaryMarker "" }.touched

/-- Takes the value away, and leaves the binary marker. -/
def clearValue (key : Key) : Key :=
  { key with value := .absent }.touched

/-- Writes an entry of the metadata without a look at the value. -/
def writeMetadata (key : Key) (name text : String) : Key :=
  { key with metadata := key.metadata.set name text }.touched

/-- Sets an entry of the metadata, where the binary marker turns a text into its bytes. -/
def setMetadata (key : Key) (name text : String) : Attempt KeyError Key :=
  if name = "" then .fail (.invalidName "" .emptyMetadataName)
  else if name = Metadata.binaryMarker ∧ key.value.isText then
    { outcome := .ok ({ key with value := .binary key.value.bytes }.writeMetadata name text)
      events := [.markerSet key.nameText] }
  else pure (key.writeMetadata name text)

/-- Removes an entry of the metadata, whose text comes back, without a look at the value. -/
def dropMetadata (key : Key) (name : String) : Option String × Key :=
  (key.metadata.get? name, { key with metadata := key.metadata.erase name }.touched)

/-- Removes an entry of the metadata, where bytes without the marker become the text they encode. -/
def removeMetadata (key : Key) (name : String) : Attempt KeyError (Option String × Key) :=
  match key.value with
  | .binary content =>
    if name = Metadata.binaryMarker then
      if 0 ∈ content then .fail .embeddedNul
      else
        match Text.ofUtf8? content with
        | none => .fail .invalidUtf8
        | some decoded =>
          { outcome := .ok ({ key with value := .text decoded }.dropMetadata name)
            events := [.markerRemoved key.nameText] }
    else pure (key.dropMetadata name)
  | _ => pure (key.dropMetadata name)

def setOwner (key : Key) (owner : String) : Key :=
  key.writeMetadata Metadata.ownerName owner

def setComment (key : Key) (comment : String) : Key :=
  key.writeMetadata Metadata.commentName comment

def setPermissions (key : Key) (permissions : Permissions) : Key :=
  { key with permissions }.touched

def clearSync {ε : Type} (key : Key) : Attempt ε Key :=
  { outcome := .ok { key with needsSync := false }
    events := [.syncCleared key.nameText] }

end Key

inductive Edit
  | setName (text : String)
  | addBaseName (segment : String)
  | setText (content : String)
  | setBinary (content : List UInt8)
  | clearValue
  | setMetadata (name text : String)
  | removeMetadata (name : String)
  | setOwner (owner : String)
  | setComment (comment : String)
  | setPermissions (permissions : Permissions)
  | setUid (uid : UInt32)
  | setGid (gid : UInt32)
  | setMode (mode : UInt32)
  | clearSync
  deriving DecidableEq, Repr

namespace Key

def apply (key : Key) : Edit → Attempt KeyError Key
  | .setName text => key.setName text
  | .addBaseName segment => key.addBaseName segment
  | .setText content => key.setText content
  | .setBinary content => pure (key.setBinary content)
  | .clearValue => pure key.clearValue
  | .setMetadata name text => key.setMetadata name text
  | .removeMetadata name => Prod.snd <$> key.removeMetadata name
  | .setOwner owner => pure (key.setOwner owner)
  | .setComment comment => pure (key.setComment comment)
  | .setPermissions permissions => pure (key.setPermissions permissions)
  | .setUid uid => pure (key.setPermissions { key.permissions with uid })
  | .setGid gid => pure (key.setPermissions { key.permissions with gid })
  | .setMode mode => pure (key.setPermissions { key.permissions with mode })
  | .clearSync => key.clearSync

/-- The key after a change, which a refused change leaves as it was. -/
def after (key : Key) (edit : Edit) : Key :=
  match (key.apply edit).outcome with
  | .ok changed => changed
  | .error _ => key

def afterAll (key : Key) (edits : List Edit) : Key :=
  edits.foldl after key

end Key

end Keyspace
