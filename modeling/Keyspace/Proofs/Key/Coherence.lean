import Keyspace.Proofs.Key.Reachable
import Keyspace.Proofs.Metadata
import Keyspace.Proofs.Text.Encoding

namespace Keyspace

/-- The value is of the kind that the marker tells, and a text holds no zero. -/
def Value.Fits (marked : Bool) : Value → Prop
  | .absent => True
  | .text content => marked = false ∧ '\x00' ∉ content.toList
  | .binary _ => marked = true

namespace Key

structure Coherent (key : Key) : Prop where
  fits : key.value.Fits key.isBinary
  wellNamed : key.metadata.WellNamed

variable {key changed : Key}

theorem coherent_nameless : nameless.Coherent :=
  ⟨trivial, Metadata.wellNamed_empty⟩

theorem Coherent.isBinary_of_text (h : key.Coherent) {content : String}
    (hvalue : key.value = .text content) : key.isBinary = false := by
  have hfits := h.fits
  rw [hvalue] at hfits
  exact hfits.1

theorem Coherent.isBinary_of_binary (h : key.Coherent) {content : List UInt8}
    (hvalue : key.value = .binary content) : key.isBinary = true := by
  have hfits := h.fits
  rw [hvalue] at hfits
  exact hfits

theorem Coherent.not_mem_of_text (h : key.Coherent) {content : String}
    (hvalue : key.value = .text content) : '\x00' ∉ content.toList := by
  have hfits := h.fits
  rw [hvalue] at hfits
  exact hfits.2

theorem isBinary_eq_true_iff : key.isBinary = true ↔ "binary" ∈ key.metadata.names :=
  (Metadata.mem_names_iff key.metadata Metadata.binaryMarker).symm

theorem isBinary_writeMetadata (key : Key) (name text : String) :
    (key.writeMetadata name text).isBinary = (Metadata.binaryMarker == name || key.isBinary) :=
  Metadata.contains_set key.metadata name text Metadata.binaryMarker

theorem isBinary_writeMetadata_marker (key : Key) (text : String) :
    (key.writeMetadata Metadata.binaryMarker text).isBinary = true := by
  rw [isBinary_writeMetadata, beq_self_eq_true, Bool.true_or]

theorem isBinary_dropMetadata (key : Key) (name : String) :
    (key.dropMetadata name).2.isBinary = (Metadata.binaryMarker != name && key.isBinary) :=
  Metadata.contains_erase key.metadata name Metadata.binaryMarker

theorem Coherent.writeMetadata (h : key.Coherent) {name : String} (hname : name ≠ "")
    (hmarker : name ≠ Metadata.binaryMarker) (text : String) :
    (key.writeMetadata name text).Coherent := by
  constructor
  · rw [isBinary_writeMetadata, beq_false_of_ne (Ne.symm hmarker), Bool.false_or]
    exact h.fits
  · exact h.wellNamed.set hname text

theorem Coherent.setText (h : key.Coherent) {content : String}
    (hchange : (key.setText content).outcome = .ok changed) : changed.Coherent := by
  obtain ⟨hzero, rfl⟩ := setText_eq_ok_iff.1 hchange
  exact ⟨⟨Metadata.contains_erase_self key.metadata _, hzero⟩, h.wellNamed.erase _⟩

theorem Coherent.setBinary (h : key.Coherent) (content : List UInt8) :
    (key.setBinary content).Coherent :=
  ⟨Metadata.contains_setIfMissing key.metadata _ _, h.wellNamed.setIfMissing (by decide) _⟩

theorem Coherent.setMetadata (h : key.Coherent) {name text : String}
    (hchange : (key.setMetadata name text).outcome = .ok changed) : changed.Coherent := by
  obtain ⟨hname, rfl⟩ := setMetadata_eq_ok_iff.1 hchange
  by_cases hmarker : name = Metadata.binaryMarker
  · subst hmarker
    refine ⟨?_, ?_⟩
    · rw [isBinary_writeMetadata_marker]
      -- the marker turns a text into bytes, so it never stands beside one
      obtain ⟨keyName, value, metadata, permissions, needsSync⟩ := key
      cases value with
      | absent => trivial
      | text content => rfl
      | binary content => rfl
    · split
      · exact h.wellNamed.set hname text
      · exact h.wellNamed.set hname text
  · rw [if_neg (fun hboth => hmarker hboth.1)]
    exact h.writeMetadata hname hmarker text

theorem Coherent.dropMetadata (h : key.Coherent) {name : String}
    (hkept : ∀ content, key.value = .binary content → name ≠ Metadata.binaryMarker) :
    (key.dropMetadata name).2.Coherent := by
  refine ⟨?_, h.wellNamed.erase name⟩
  rw [isBinary_dropMetadata]
  change key.value.Fits _
  cases hvalue : key.value with
  | absent => trivial
  | text content =>
    refine ⟨?_, h.not_mem_of_text hvalue⟩
    rw [h.isBinary_of_text hvalue, Bool.and_false]
  | binary content =>
    rw [Value.Fits, h.isBinary_of_binary hvalue, Bool.and_true, bne_iff_ne]
    exact (hkept content hvalue).symm

theorem Coherent.removeMetadata (h : key.Coherent) {name : String} {removed : Option String}
    (hchange : (key.removeMetadata name).outcome = .ok (removed, changed)) :
    changed.Coherent := by
  obtain ⟨-, ⟨decoded, -, hzero, rfl, rfl⟩ | ⟨hkept, rfl⟩⟩ := removeMetadata_eq_ok hchange
  · have hdecoded : '\x00' ∉ decoded.toList := by
      intro hmem
      exact hzero ((Text.byte_mem_utf8_iff (by decide)).2 hmem)
    exact ⟨⟨Metadata.contains_erase_self key.metadata _, hdecoded⟩, h.wellNamed.erase _⟩
  · exact h.dropMetadata hkept

theorem Coherent.apply (h : key.Coherent) {change : Edit}
    (hchange : (key.apply change).outcome = .ok changed) : changed.Coherent := by
  cases change with
  | setName text =>
    obtain ⟨name, -, rfl⟩ := setName_eq_ok_iff.1 hchange
    exact ⟨h.fits, h.wellNamed⟩
  | addBaseName segment =>
    obtain ⟨name, joined, -, -, rfl⟩ := addBaseName_eq_ok_iff.1 hchange
    exact ⟨h.fits, h.wellNamed⟩
  | setText content => exact h.setText hchange
  | setBinary content =>
    cases hchange
    exact h.setBinary content
  | clearValue =>
    cases hchange
    exact ⟨trivial, h.wellNamed⟩
  | setMetadata name text => exact h.setMetadata hchange
  | removeMetadata name => exact h.removeMetadata (apply_removeMetadata_eq_ok hchange)
  | setOwner owner =>
    cases hchange
    exact h.writeMetadata (by decide) (by decide) owner
  | setComment comment =>
    cases hchange
    exact h.writeMetadata (by decide) (by decide) comment
  | setPermissions permissions | setUid uid | setGid gid | setMode mode | clearSync =>
    cases hchange
    exact ⟨h.fits, h.wellNamed⟩

theorem Reachable.coherent (h : key.Reachable) : key.Coherent := by
  apply h.invariant coherent_nameless
  intro key changed change hkey hchange
  exact hkey.apply hchange

theorem Coherent.text_eq_ok_iff (h : key.Coherent) :
    (∃ content, key.text = .ok content) ↔ key.isText = true := by
  rw [isText, Bool.not_eq_true']
  unfold text
  cases hvalue : key.value with
  | absent => cases key.isBinary <;> simp
  | text content => simp [h.isBinary_of_text hvalue]
  | binary content => simp [h.isBinary_of_binary hvalue]

theorem text_eq_error_iff (key : Key) :
    key.text = .error .notText ↔ ¬∃ content, key.text = .ok content := by
  unfold text
  cases key.value with
  | absent => cases key.isBinary <;> simp
  | text content => simp
  | binary content => simp

theorem Coherent.isSome_binary?_iff (h : key.Coherent) :
    key.binary?.isSome = true ↔ key.isBinary = true ∧ key.value ≠ .absent := by
  unfold binary?
  cases hvalue : key.value with
  | absent => simp
  | text content => simp [h.isBinary_of_text hvalue]
  | binary content => simp [h.isBinary_of_binary hvalue]

/-- The marker tells whether the value is a text or bytes, and no text holds a zero. -/
theorem Reachable.marker_tells_kind (h : key.Reachable) :
    ("binary" ∈ key.metadata.names →
      key.value = .absent ∨ ∃ content, key.value = .binary content) ∧
    ("binary" ∉ key.metadata.names →
      key.value = .absent ∨ ∃ content, key.value = .text content) ∧
    (∀ content, key.value = .text content → '\x00' ∉ content.toList) ∧
    "" ∉ key.metadata.names ∧
    key.metadata.names.Nodup ∧
    ((∃ content, key.text = .ok content) ↔ key.isText = true) ∧
    (key.text = .error .notText ↔ key.isBinary = true) ∧
    (key.binary?.isSome = true ↔ key.isBinary = true ∧ key.value ≠ .absent) := by
  have hcoherent := h.coherent
  refine ⟨?_, ?_, fun content => hcoherent.not_mem_of_text, hcoherent.wellNamed.nonempty,
    hcoherent.wellNamed.nodup, hcoherent.text_eq_ok_iff, ?_, hcoherent.isSome_binary?_iff⟩
  · intro hmarker
    cases hvalue : key.value with
    | absent => exact .inl rfl
    | text content =>
      have hmarked := isBinary_eq_true_iff.2 hmarker
      rw [hcoherent.isBinary_of_text hvalue] at hmarked
      cases hmarked
    | binary content => exact .inr ⟨content, rfl⟩
  · intro hunmarked
    cases hvalue : key.value with
    | absent => exact .inl rfl
    | text content => exact .inr ⟨content, rfl⟩
    | binary content =>
      have hmarked := hcoherent.isBinary_of_binary hvalue
      exact (hunmarked (isBinary_eq_true_iff.1 hmarked)).elim
  · rw [text_eq_error_iff, hcoherent.text_eq_ok_iff, isText, Bool.not_eq_true', Bool.not_eq_false]

theorem notText_after_refusals :
    let draft : Draft := { name := "user//a", value := .text "v", metadata := [("binary", "x")] }
    let edits : List Edit :=
      [.setMetadata "" "y", .setBinary [118, 0], .removeMetadata "binary", .setOwner "me"]
    ∃ key, draft.build.outcome = .ok key ∧ (key.afterAll edits).text = .error .notText := by
  intro draft edits
  let key : Key :=
    { name := some ⟨"user/a", ["user", "a"]⟩
      value := .binary [118]
      metadata := ⟨[("binary", "x")]⟩ }
  have hbuilt : draft.build.outcome = .ok key := by decide +kernel
  have hreachable : (key.afterAll edits).Reachable :=
    (Reachable.fresh (.built hbuilt)).afterAll edits
  obtain ⟨-, -, -, -, -, -, hnotText, -⟩ := hreachable.marker_tells_kind
  exact ⟨key, hbuilt, hnotText.2 (by decide)⟩

end Key

end Keyspace
