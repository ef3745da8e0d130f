import Keyspace.Proofs.Key.Edit
import Keyspace.Proofs.Key.InPlace

namespace Keyspace

/-- The reasons for which a change to the key is refused. -/
inductive Edit.Refused (key : Key) : Edit → KeyError → Prop
  | unreadable {text : String} {error : KeyError} (h : Name.parse text = .error error) :
    Refused key (.setName text) error
  | nameless {segment : String} (h : key.name = none) :
    Refused key (.addBaseName segment) .nameless
  | relative {segment : String} (hnamed : key.name ≠ none)
    (h : segment = "" ∨ segment = "." ∨ segment = "..") :
    Refused key (.addBaseName segment) (.invalidName segment .relativeSegment)
  | zeroInText {content : String} (h : '\x00' ∈ content.toList) :
    Refused key (.setText content) .embeddedNul
  | unnamed {text : String} :
    Refused key (.setMetadata "" text) (.invalidName "" .emptyMetadataName)
  | zeroInBytes {content : List UInt8} (hvalue : key.value = .binary content) (h : 0 ∈ content) :
    Refused key (.removeMetadata "binary") .embeddedNul
  | undecodable {content : List UInt8} (hvalue : key.value = .binary content)
    (hzero : 0 ∉ content) (h : ∀ text, Text.utf8 text ≠ content) :
    Refused key (.removeMetadata "binary") .invalidUtf8

namespace Edit

variable {key : Key} {change : Edit} {error : KeyError}

theorem refused_of_error (h : (key.apply change).outcome = .error error) :
    change.Refused key error := by
  cases change with
  | setName text => exact .unreadable (Key.setName_eq_error_iff.1 h)
  | addBaseName segment =>
    obtain ⟨hname, rfl⟩ | ⟨hname, hsegment, rfl⟩ := Key.addBaseName_eq_error_iff.1 h
    · exact .nameless hname
    · exact .relative hname hsegment
  | setText content =>
    obtain ⟨hzero, rfl⟩ := Key.setText_eq_error_iff.1 h
    exact .zeroInText hzero
  | setMetadata name text =>
    obtain ⟨rfl, rfl⟩ := Key.setMetadata_eq_error_iff.1 h
    exact .unnamed
  | removeMetadata name =>
    obtain ⟨content, hvalue, rfl, ⟨hzero, rfl⟩ | ⟨hzero, hcode, rfl⟩⟩ :=
      Key.removeMetadata_eq_error_iff.1 (Attempt.outcome_map_eq_error_iff.1 h)
    · exact .zeroInBytes hvalue hzero
    · exact .undecodable hvalue hzero hcode
  | setBinary content | clearValue | setOwner owner | setComment comment
  | setPermissions permissions | setUid uid | setGid gid | setMode mode | clearSync => cases h

theorem Refused.apply_eq_fail (h : change.Refused key error) : key.apply change = .fail error := by
  cases h with
  | unreadable h => rw [Key.apply, Key.setName, h]
  | nameless h => rw [Key.apply, Key.addBaseName, h]
  | relative hnamed h =>
    obtain ⟨name, hname⟩ := Option.ne_none_iff_exists'.1 hnamed
    simp only [Key.apply, Key.addBaseName, hname, Name.join, if_pos h]
  | zeroInText h => rw [Key.apply, Key.setText, if_pos h]
  | unnamed => rw [Key.apply, Key.setMetadata, if_pos rfl]
  | zeroInBytes hvalue h =>
    have hremove : key.removeMetadata "binary" = .fail .embeddedNul := by
      simp only [Key.removeMetadata, hvalue, Metadata.binaryMarker, ↓reduceIte, if_pos h]
    rw [Key.apply, hremove]
    rfl
  | undecodable hvalue hzero h =>
    have hremove : key.removeMetadata "binary" = .fail .invalidUtf8 := by
      simp only [Key.removeMetadata, hvalue, Metadata.binaryMarker, ↓reduceIte, if_neg hzero,
        Text.ofUtf8?_eq_none_iff.2 h]
    rw [Key.apply, hremove]
    rfl

end Edit

namespace InPlace

theorem run_edit_of_refused {change : Edit} {error : KeyError} {holder : Holder}
    (h : change.Refused holder.key error) : run (edit change) holder = (.error error, holder) := by
  rw [run_edit, h.apply_eq_fail, Attempt.settle_fail]

theorem refused_of_run_edit {change : Edit} {error : KeyError} {holder : Holder}
    (h : (run (edit change) holder).1 = .error error) : change.Refused holder.key error := by
  rw [fst_run_edit, Attempt.outcome_map_eq_error_iff] at h
  exact Edit.refused_of_error h

theorem eq_of_run_edit {change : Edit} {error : KeyError} {holder after : Holder}
    (h : run (edit change) holder = (.error error, after)) : after = holder := by
  have hrefused : change.Refused holder.key error := refused_of_run_edit (by rw [h])
  rw [run_edit_of_refused hrefused] at h
  exact (Prod.mk.inj h).2.symm

/-- A change is refused exactly for its listed reasons, and then all that is held stays. -/
theorem refusal_keeps_holder (change : Edit) (holder : Holder) :
    (∀ error after, run (edit change) holder = (.error error, after) → after = holder) ∧
      ∀ error, (run (edit change) holder).1 = .error error ↔ change.Refused holder.key error := by
  constructor
  · intro error after h
    exact eq_of_run_edit h
  · intro error
    constructor
    · exact refused_of_run_edit
    · intro hrefused
      rw [run_edit_of_refused hrefused]

end InPlace

end Keyspace
