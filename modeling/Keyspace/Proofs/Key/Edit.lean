import Keyspace.Key.Edit

namespace Keyspace.Key

variable {key changed : Key} {change : Edit}

theorem setName_eq_ok_iff {text : String} :
    (key.setName text).outcome = .ok changed ↔
      ∃ name, Name.parse text = .ok name ∧ changed = { key with name := some name }.touched := by
  rw [setName]
  cases Name.parse text with
  | error error => simp
  | ok name => simp [eq_comm]

theorem addBaseName_eq_ok_iff {segment : String} :
    (key.addBaseName segment).outcome = .ok changed ↔
      ∃ name joined, key.name = some name ∧ name.join segment = .ok joined ∧
        changed = { key with name := some joined }.touched := by
  rw [addBaseName]
  cases hname : key.name with
  | none => simp
  | some name =>
    cases hjoin : name.join segment with
    | error error => simp [hjoin]
    | ok joined => simp [hjoin, eq_comm]

theorem setText_eq_ok_iff {content : String} :
    (key.setText content).outcome = .ok changed ↔
      '\x00' ∉ content.toList ∧
        changed = { key with
          value := .text content
          metadata := key.metadata.erase Metadata.binaryMarker }.touched := by
  rw [setText]
  by_cases hzero : '\x00' ∈ content.toList
  · simp [hzero]
  · simp [hzero, eq_comm]

theorem setMetadata_eq_ok_iff {name text : String} :
    (key.setMetadata name text).outcome = .ok changed ↔
      name ≠ "" ∧
        changed = (if name = Metadata.binaryMarker ∧ key.value.isText then
            { key with value := .binary key.value.bytes } else key).writeMetadata name text := by
  rw [setMetadata]
  by_cases hname : name = ""
  · simp [hname]
  · by_cases hmarker : name = Metadata.binaryMarker ∧ key.value.isText
    · rw [if_neg hname, if_pos hmarker, if_pos hmarker]
      simp [hname, eq_comm]
    · rw [if_neg hname, if_neg hmarker, if_neg hmarker]
      simp [hname, eq_comm]

theorem removeMetadata_eq_ok {name : String} {removed : Option String}
    (h : (key.removeMetadata name).outcome = .ok (removed, changed)) :
    removed = key.metadata.get? name ∧
      ((∃ decoded, key.value = .binary (Text.utf8 decoded) ∧ 0 ∉ Text.utf8 decoded ∧
          name = Metadata.binaryMarker ∧
          changed = { key with
            value := .text decoded
            metadata := key.metadata.erase name }.touched) ∨
        ((∀ content, key.value = .binary content → name ≠ Metadata.binaryMarker) ∧
          changed = { key with metadata := key.metadata.erase name }.touched)) := by
  unfold removeMetadata at h
  split at h
  · rename_i content hvalue
    split at h
    · rename_i hname
      split at h
      · cases h
      · rename_i hzero
        split at h
        · cases h
        · rename_i decoded hdecoded
          obtain rfl := Text.ofUtf8?_eq_some_iff.1 hdecoded
          cases h
          exact ⟨rfl, .inl ⟨decoded, hvalue, hzero, hname, rfl⟩⟩
    · rename_i hname
      cases h
      exact ⟨rfl, .inr ⟨fun _ _ => hname, rfl⟩⟩
  · rename_i hvalue
    cases h
    exact ⟨rfl, .inr ⟨fun content hcontent => (hvalue content hcontent).elim, rfl⟩⟩

theorem apply_removeMetadata_eq_ok {name : String}
    (h : (key.apply (.removeMetadata name)).outcome = .ok changed) :
    (key.removeMetadata name).outcome = .ok (key.metadata.get? name, changed) := by
  obtain ⟨⟨removed, after⟩, hremove, hafter⟩ := Attempt.outcome_map_eq_ok_iff.1 h
  obtain rfl : after = changed := hafter
  obtain ⟨rfl, -⟩ := removeMetadata_eq_ok hremove
  exact hremove

theorem setName_eq_error_iff {text : String} {error : KeyError} :
    (key.setName text).outcome = .error error ↔ Name.parse text = .error error := by
  rw [setName]
  cases Name.parse text with
  | error cause => simp
  | ok name => simp

theorem addBaseName_eq_error_iff {segment : String} {error : KeyError} :
    (key.addBaseName segment).outcome = .error error ↔
      (key.name = none ∧ error = .nameless) ∨
        (key.name ≠ none ∧ (segment = "" ∨ segment = "." ∨ segment = "..") ∧
          error = .invalidName segment .relativeSegment) := by
  rw [addBaseName]
  cases key.name with
  | none => simp [eq_comm]
  | some name =>
    dsimp only
    rw [Name.join]
    by_cases hsegment : segment = "" ∨ segment = "." ∨ segment = ".."
    · simp [hsegment, eq_comm]
    · simp [hsegment]

theorem setText_eq_error_iff {content : String} {error : KeyError} :
    (key.setText content).outcome = .error error ↔
      '\x00' ∈ content.toList ∧ error = .embeddedNul := by
  rw [setText]
  by_cases hzero : '\x00' ∈ content.toList
  · simp [hzero, eq_comm]
  · simp [hzero]

theorem setMetadata_eq_error_iff {name text : String} {error : KeyError} :
    (key.setMetadata name text).outcome = .error error ↔
      name = "" ∧ error = .invalidName "" .emptyMetadataName := by
  rw [setMetadata]
  by_cases hname : name = ""
  · simp [hname, eq_comm]
  · rw [if_neg hname]
    split
    · simp [hname]
    · simp [hname]

theorem removeMetadata_eq_error_iff {name : String} {error : KeyError} :
    (key.removeMetadata name).outcome = .error error ↔
      ∃ content, key.value = .binary content ∧ name = Metadata.binaryMarker ∧
        ((0 ∈ content ∧ error = .embeddedNul) ∨
          (0 ∉ content ∧ (∀ text, Text.utf8 text ≠ content) ∧ error = .invalidUtf8)) := by
  simp only [← Text.ofUtf8?_eq_none_iff]
  rw [removeMetadata]
  cases key.value with
  | absent => simp
  | text content => simp
  | binary content =>
    by_cases hmarker : name = Metadata.binaryMarker
    · by_cases hzero : 0 ∈ content
      · simp [hmarker, hzero, eq_comm]
      · cases hdecode : Text.ofUtf8? content with
        | none => simp [hmarker, hzero, hdecode, eq_comm]
        | some decoded => simp [hmarker, hzero, hdecode]
    · simp [hmarker]

theorem after_of_ok (h : (key.apply change).outcome = .ok changed) :
    key.after change = changed := by
  rw [after, h]

theorem after_of_error {error : KeyError} (h : (key.apply change).outcome = .error error) :
    key.after change = key := by
  rw [after, h]

theorem afterAll_append (key : Key) (earlier later : List Edit) :
    key.afterAll (earlier ++ later) = (key.afterAll earlier).afterAll later :=
  List.foldl_append

theorem needsSync_of_apply (h : (key.apply change).outcome = .ok changed)
    (hchange : change ≠ .clearSync) : changed.needsSync = true := by
  cases change with
  | setName text =>
    obtain ⟨name, -, rfl⟩ := setName_eq_ok_iff.1 h
    rfl
  | addBaseName segment =>
    obtain ⟨name, joined, -, -, rfl⟩ := addBaseName_eq_ok_iff.1 h
    rfl
  | setText content =>
    obtain ⟨-, rfl⟩ := setText_eq_ok_iff.1 h
    rfl
  | setMetadata name text =>
    obtain ⟨-, rfl⟩ := setMetadata_eq_ok_iff.1 h
    rfl
  | removeMetadata name =>
    obtain ⟨-, ⟨decoded, -, -, -, rfl⟩ | ⟨-, rfl⟩⟩ :=
      removeMetadata_eq_ok (apply_removeMetadata_eq_ok h)
    · rfl
    · rfl
  | setBinary content | clearValue | setOwner owner | setComment comment
  | setPermissions permissions | setUid uid | setGid gid | setMode mode =>
    cases h
    rfl
  | clearSync => exact (hchange rfl).elim

theorem needsSync_after (h : key.needsSync = true) (hchange : change ≠ .clearSync) :
    (key.after change).needsSync = true := by
  cases houtcome : (key.apply change).outcome with
  | ok changed =>
    rw [after_of_ok houtcome]
    exact needsSync_of_apply houtcome hchange
  | error error =>
    rw [after_of_error houtcome]
    exact h

theorem needsSync_afterAll {edits : List Edit} (h : key.needsSync = true)
    (hedits : .clearSync ∉ edits) : (key.afterAll edits).needsSync = true := by
  induction edits generalizing key with
  | nil => exact h
  | cons change edits ih =>
    have hchange : change ≠ .clearSync := (List.ne_of_not_mem_cons hedits).symm
    exact ih (needsSync_after h hchange) (List.not_mem_of_not_mem_cons hedits)

end Keyspace.Key
