import Keyspace.Key.InPlace

namespace Keyspace

/-- A changed key takes the place of the held one, which a refusal leaves there. -/
def Attempt.settle (attempt : Attempt KeyError Key) (holder : Holder) :
    Except KeyError Unit × Holder :=
  match attempt.outcome with
  | .ok changed => (.ok (), ⟨changed, holder.events ++ attempt.events⟩)
  | .error error => (.error error, ⟨holder.key, holder.events ++ attempt.events⟩)

@[simp] theorem Attempt.settle_pure (key : Key) (holder : Holder) :
    (pure key : Attempt KeyError Key).settle holder = (.ok (), { holder with key }) := by
  simp [settle]

@[simp] theorem Attempt.settle_fail (error : KeyError) (holder : Holder) :
    (fail error : Attempt KeyError Key).settle holder = (.error error, holder) := by
  simp [settle]

namespace InPlace

theorem run_setName (text : String) (holder : Holder) :
    run (setName text) holder = (holder.key.setName text).settle holder := by
  rw [setName, run_bind, run_liftExcept, Key.setName]
  cases Name.parse text with
  | error error => simp
  | ok name =>
    by_cases hcanonical : name.escaped = text
    · simp [Attempt.settle, hcanonical]
    · simp [Attempt.settle, hcanonical]

theorem run_addBaseName (segment : String) (holder : Holder) :
    run (addBaseName segment) holder = (holder.key.addBaseName segment).settle holder := by
  simp only [addBaseName, run_bind, run_current, run_liftExcept, Key.requireName, Key.addBaseName]
  cases holder.key.name with
  | none => simp
  | some name =>
    cases hjoin : name.join segment with
    | error error => simp [hjoin]
    | ok joined => simp [hjoin]

theorem run_setText (content : String) (holder : Holder) :
    run (setText content) holder = (holder.key.setText content).settle holder := by
  rw [setText, Key.setText]
  by_cases hzero : '\x00' ∈ content.toList
  · simp [hzero]
  · simp [hzero]

theorem run_setBinary (content : List UInt8) (holder : Holder) :
    run (setBinary content) holder =
      (.ok (), { holder with key := holder.key.setBinary content }) := by
  simp [setBinary, Key.setBinary]

theorem run_clearValue (holder : Holder) :
    run clearValue holder = (.ok (), { holder with key := holder.key.clearValue }) := by
  simp [clearValue, Key.clearValue]

theorem run_writeMetadata (name text : String) (holder : Holder) :
    run (writeMetadata name text) holder =
      (.ok (), { holder with key := holder.key.writeMetadata name text }) := by
  simp [writeMetadata, Key.writeMetadata]

theorem run_setMetadata (name text : String) (holder : Holder) :
    run (setMetadata name text) holder = (holder.key.setMetadata name text).settle holder := by
  rw [setMetadata, Key.setMetadata]
  by_cases hname : name = ""
  · simp [hname]
  · rw [if_neg hname, if_neg hname, run_bind, run_current]
    dsimp only
    by_cases hmarker : name = Metadata.binaryMarker ∧ holder.key.value.isText
    · rw [if_pos hmarker, if_pos hmarker]
      simp [run_writeMetadata, Attempt.settle]
    · rw [if_neg hmarker, if_neg hmarker]
      simp [run_writeMetadata]

theorem run_decodeValue (content : List UInt8) (holder : Holder) :
    run (decodeValue content) holder =
      if 0 ∈ content then (.error .embeddedNul, holder)
      else
        match Text.ofUtf8? content with
        | none => (.error .invalidUtf8, holder)
        | some decoded =>
          (.ok (), ⟨{ holder.key with value := .text decoded },
            holder.events ++ [.markerRemoved holder.key.nameText]⟩) := by
  rw [decodeValue]
  by_cases hzero : 0 ∈ content
  · simp [hzero]
  · rw [if_neg hzero, if_neg hzero]
    cases Text.ofUtf8? content with
    | none => simp
    | some decoded => simp

theorem run_dropMetadata (name : String) (holder : Holder) :
    run (dropMetadata name) holder =
      (.ok (holder.key.dropMetadata name).1,
        { holder with key := (holder.key.dropMetadata name).2 }) := rfl

theorem run_removeMetadata (name : String) (holder : Holder) :
    run (removeMetadata name) holder =
      match (holder.key.removeMetadata name).outcome with
      | .ok (removed, changed) =>
        (.ok removed, ⟨changed, holder.events ++ (holder.key.removeMetadata name).events⟩)
      | .error error =>
        (.error error, ⟨holder.key, holder.events ++ (holder.key.removeMetadata name).events⟩) := by
  rw [removeMetadata, Key.removeMetadata]
  by_cases hmarker : name = Metadata.binaryMarker
  · rw [if_pos hmarker, run_bind, run_current]
    dsimp only
    cases hvalue : holder.key.value with
    | absent => simp [run_dropMetadata]
    | text content => simp [run_dropMetadata]
    | binary content =>
      dsimp only
      rw [if_pos hmarker, run_bind, run_decodeValue]
      by_cases hzero : 0 ∈ content
      · simp [hzero]
      · rw [if_neg hzero, if_neg hzero]
        cases Text.ofUtf8? content with
        | none => simp
        | some decoded => simp [run_dropMetadata]
  · rw [if_neg hmarker]
    cases hvalue : holder.key.value with
    | absent => simp [run_dropMetadata]
    | text content => simp [run_dropMetadata]
    | binary content => simp [run_dropMetadata, hmarker]

theorem run_setPermissions (change : Permissions → Permissions) (holder : Holder) :
    run (setPermissions change) holder =
      (.ok (),
        { holder with key := holder.key.setPermissions (change holder.key.permissions) }) := by
  simp [setPermissions, Key.setPermissions]

theorem run_clearSync (holder : Holder) :
    run clearSync holder = holder.key.clearSync.settle holder := by
  simp [clearSync, Key.clearSync, Attempt.settle]

/-- A change in place and the change of the key as a function have one outcome. -/
theorem run_edit (change : Edit) (holder : Holder) :
    run (edit change) holder = (holder.key.apply change).settle holder := by
  cases change with
  | setName text => exact run_setName text holder
  | addBaseName segment => exact run_addBaseName segment holder
  | setText content => exact run_setText content holder
  | setBinary content =>
    exact (run_setBinary content holder).trans (Attempt.settle_pure _ holder).symm
  | clearValue => exact (run_clearValue holder).trans (Attempt.settle_pure _ holder).symm
  | setMetadata name text => exact run_setMetadata name text holder
  | removeMetadata name =>
    rw [edit, run_discard, run_removeMetadata, Key.apply, Attempt.settle, Attempt.outcome_map,
      Attempt.events_map]
    cases (holder.key.removeMetadata name).outcome with
    | ok result => rfl
    | error error => rfl
  | setOwner owner =>
    exact (run_writeMetadata _ owner holder).trans (Attempt.settle_pure _ holder).symm
  | setComment comment =>
    exact (run_writeMetadata _ comment holder).trans (Attempt.settle_pure _ holder).symm
  | setPermissions permissions | setUid uid | setGid gid | setMode mode =>
    exact (run_setPermissions _ holder).trans (Attempt.settle_pure _ holder).symm
  | clearSync => exact run_clearSync holder

theorem fst_run_edit (change : Edit) (holder : Holder) :
    (run (edit change) holder).1 = ((fun _ => ()) <$> holder.key.apply change).outcome := by
  rw [run_edit, Attempt.settle, Attempt.outcome_map]
  cases (holder.key.apply change).outcome with
  | ok changed => rfl
  | error error => rfl

theorem key_run_edit (change : Edit) (holder : Holder) :
    (run (edit change) holder).2.key = holder.key.after change := by
  rw [run_edit, Attempt.settle, Key.after]
  cases (holder.key.apply change).outcome with
  | ok changed => rfl
  | error error => rfl

/-- A held key becomes what the history of its changes makes of it. -/
theorem key_runAll (holder : Holder) (edits : List Edit) :
    (runAll holder edits).key = holder.key.afterAll edits := by
  induction edits generalizing holder with
  | nil => rfl
  | cons change edits ih =>
    have hrest := ih (run (edit change) holder).2
    rw [key_run_edit] at hrest
    exact hrest

end InPlace

end Keyspace
