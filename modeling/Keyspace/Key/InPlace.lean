import Keyspace.Key.Edit

namespace Keyspace

/-- A key that is changed where it is, and the events reported so far. -/
structure Holder where
  key : Key
  events : List KeyEvent := []
  deriving DecidableEq, Repr

/-- Work on a held key, which a refusal leaves as the steps so far have made it. -/
abbrev InPlace (α : Type) := ExceptT KeyError (StateM Holder) α

namespace InPlace

variable {α β : Type}

def run (work : InPlace α) (holder : Holder) : Except KeyError α × Holder :=
  (ExceptT.run work).run holder

def current : InPlace Key :=
  return (← get).key

def update (change : Key → Key) : InPlace Unit :=
  modify fun holder => { holder with key := change holder.key }

def report (event : KeyEvent) : InPlace Unit :=
  modify fun holder => { holder with events := holder.events ++ [event] }

def touch : InPlace Unit :=
  update Key.touched

def storeName (name : Name) : InPlace Unit :=
  update fun key => { key with name := some name }

def storeValue (value : Value) : InPlace Unit :=
  update fun key => { key with value }

/-- Takes the value out of the key, which has none until another one is stored. -/
def takeValue : InPlace Value := do
  let key ← current
  storeValue .absent
  return key.value

def updateMetadata (change : Metadata → Metadata) : InPlace Unit :=
  update fun key => { key with metadata := change key.metadata }

def updatePermissions (change : Permissions → Permissions) : InPlace Unit :=
  update fun key => { key with permissions := change key.permissions }

def setName (text : String) : InPlace Unit := do
  let name ← liftExcept (Name.parse text)
  if name.escaped ≠ text then
    report (.nameCanonicalised text name.escaped)
  storeName name
  touch

def addBaseName (segment : String) : InPlace Unit := do
  let name ← liftExcept (← current).requireName
  let joined ← liftExcept (name.join segment)
  storeName joined
  touch

def setText (content : String) : InPlace Unit := do
  if '\x00' ∈ content.toList then
    throw .embeddedNul
  updateMetadata (·.erase Metadata.binaryMarker)
  storeValue (.text content)
  touch

def setBinary (content : List UInt8) : InPlace Unit := do
  updateMetadata (·.setIfMissing Metadata.binaryMarker "")
  storeValue (.binary content)
  touch

def clearValue : InPlace Unit := do
  storeValue .absent
  touch

def writeMetadata (name text : String) : InPlace Unit := do
  updateMetadata (·.set name text)
  touch

def setMetadata (name text : String) : InPlace Unit := do
  if name = "" then
    throw (.invalidName "" .emptyMetadataName)
  let key ← current
  if name = Metadata.binaryMarker ∧ key.value.isText then
    report (.markerSet key.nameText)
    let taken ← takeValue
    storeValue (.binary taken.bytes)
  writeMetadata name text

/-- Turns bytes into the text that they encode, which must not hold a zero. -/
def decodeValue (content : List UInt8) : InPlace Unit := do
  if 0 ∈ content then
    throw .embeddedNul
  match Text.ofUtf8? content with
  | none => throw .invalidUtf8
  | some decoded =>
    report (.markerRemoved (← current).nameText)
    storeValue (.text decoded)

def dropMetadata (name : String) : InPlace (Option String) := do
  let key ← current
  updateMetadata (·.erase name)
  touch
  return key.metadata.get? name

def removeMetadata (name : String) : InPlace (Option String) := do
  if name = Metadata.binaryMarker then
    match (← current).value with
    | .binary content => decodeValue content
    | _ => pure ()
  dropMetadata name

def setPermissions (change : Permissions → Permissions) : InPlace Unit := do
  updatePermissions change
  touch

def clearSync : InPlace Unit := do
  report (.syncCleared (← current).nameText)
  update fun key => { key with needsSync := false }

def edit : Edit → InPlace Unit
  | .setName text => setName text
  | .addBaseName segment => addBaseName segment
  | .setText content => setText content
  | .setBinary content => setBinary content
  | .clearValue => clearValue
  | .setMetadata name text => setMetadata name text
  | .removeMetadata name => discard (removeMetadata name)
  | .setOwner owner => writeMetadata Metadata.ownerName owner
  | .setComment comment => writeMetadata Metadata.commentName comment
  | .setPermissions permissions => setPermissions fun _ => permissions
  | .setUid uid => setPermissions ({ · with uid })
  | .setGid gid => setPermissions ({ · with gid })
  | .setMode mode => setPermissions ({ · with mode })
  | .clearSync => clearSync

/-- Makes changes one after the other and goes on after a refusal. -/
def runAll (holder : Holder) (edits : List Edit) : Holder :=
  edits.foldl (fun held change => (run (edit change) held).2) holder

@[simp] theorem run_pure (value : α) (holder : Holder) :
    run (pure value) holder = (.ok value, holder) := rfl

@[simp] theorem run_throw (error : KeyError) (holder : Holder) :
    run (throw error : InPlace α) holder = (.error error, holder) := rfl

@[simp] theorem run_liftExcept (outcome : Except KeyError α) (holder : Holder) :
    run (liftExcept outcome) holder = (outcome, holder) := by
  cases outcome <;> rfl

@[simp] theorem run_current (holder : Holder) :
    run current holder = (.ok holder.key, holder) := rfl

@[simp] theorem run_report (event : KeyEvent) (holder : Holder) :
    run (report event) holder = (.ok (), { holder with events := holder.events ++ [event] }) := rfl

@[simp] theorem run_update (change : Key → Key) (holder : Holder) :
    run (update change) holder = (.ok (), { holder with key := change holder.key }) := rfl

@[simp] theorem run_touch (holder : Holder) :
    run touch holder = (.ok (), { holder with key := holder.key.touched }) := rfl

@[simp] theorem run_storeName (name : Name) (holder : Holder) :
    run (storeName name) holder =
      (.ok (), { holder with key := { holder.key with name := some name } }) := rfl

@[simp] theorem run_storeValue (value : Value) (holder : Holder) :
    run (storeValue value) holder =
      (.ok (), { holder with key := { holder.key with value } }) := rfl

@[simp] theorem run_updateMetadata (change : Metadata → Metadata) (holder : Holder) :
    run (updateMetadata change) holder =
      (.ok (), { holder with
        key := { holder.key with metadata := change holder.key.metadata } }) := rfl

@[simp] theorem run_updatePermissions (change : Permissions → Permissions) (holder : Holder) :
    run (updatePermissions change) holder =
      (.ok (), { holder with
        key := { holder.key with permissions := change holder.key.permissions } }) := rfl

@[simp] theorem run_bind (first : InPlace α) (rest : α → InPlace β) (holder : Holder) :
    run (first >>= rest) holder =
      match run first holder with
      | (.ok value, next) => run (rest value) next
      | (.error error, next) => (.error error, next) := by
  rw [run, ExceptT.run_bind, StateT.run_bind]
  cases h : run first holder with
  | mk outcome next =>
    rw [run] at h
    rw [h]
    cases outcome with
    | ok value => rfl
    | error error => rfl

@[simp] theorem run_takeValue (holder : Holder) :
    run takeValue holder =
      (.ok holder.key.value, { holder with key := { holder.key with value := .absent } }) := rfl

@[simp] theorem run_map (f : α → β) (work : InPlace α) (holder : Holder) :
    run (f <$> work) holder = ((run work holder).1.map f, (run work holder).2) := by
  rw [← bind_pure_comp, run_bind]
  rcases run work holder with ⟨error | value, next⟩
  · rfl
  · rfl

@[simp] theorem run_discard (work : InPlace α) (holder : Holder) :
    run (discard work) holder = ((run work holder).1.map fun _ => (), (run work holder).2) :=
  run_map (fun _ => ()) work holder

end InPlace

end Keyspace
