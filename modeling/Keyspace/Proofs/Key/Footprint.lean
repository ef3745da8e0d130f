import Keyspace.Proofs.Key.Diff
import Keyspace.Proofs.Key.Refusal

namespace Keyspace

/-- The difference that an entry of the metadata can make, for the marker that of the value. -/
def Metadata.footprint (name : String) : DiffMask :=
  if name = ownerName then .only .owner
  else if name = commentName then .only .comment
  else if name = binaryMarker then .only .value
  else .empty

def Edit.footprint : Edit → DiffMask
  | .setName _ | .addBaseName _ => .only .name
  | .setText _ | .setBinary _ | .clearValue => .only .value
  | .setMetadata name _ | .removeMetadata name => Metadata.footprint name
  | .setOwner _ => .only .owner
  | .setComment _ => .only .comment
  | .setPermissions _ => .permissions
  | .setUid _ => .only .uid
  | .setGid _ => .only .gid
  | .setMode _ => .only .mode
  | .clearSync => .empty

namespace Key

variable {key changed : Key} {difference : Difference} {name text : String}

@[simp] theorem aspect_touched (key : Key) (difference : Difference) :
    key.touched.aspect difference = key.aspect difference := by
  cases difference <;> rfl

theorem aspect_withName (key : Key) (name : Option Name) (h : difference ≠ .name) :
    { key with name }.aspect difference = key.aspect difference := by
  cases difference with
  | name => exact absurd rfl h
  | value | owner | comment | uid | gid | mode | presence => rfl

theorem aspect_withValue (key : Key) (value : Value) (h : difference ≠ .value) :
    { key with value }.aspect difference = key.aspect difference := by
  cases difference with
  | value => exact absurd rfl h
  | name | owner | comment | uid | gid | mode | presence => rfl

theorem aspect_withMetadata (key : Key) {metadata : Metadata}
    (hothers : ∀ other, other ≠ name → metadata.get? other = key.metadata.get? other)
    (h : (Metadata.footprint name).contains difference = false) :
    { key with metadata }.aspect difference = key.aspect difference := by
  cases difference with
  | owner =>
    have hname : Metadata.ownerName ≠ name := by
      rintro rfl
      cases h
    exact congrArg (·.getD "") (hothers _ hname)
  | comment =>
    have hname : Metadata.commentName ≠ name := by
      rintro rfl
      cases h
    exact congrArg (·.getD "") (hothers _ hname)
  | name | value | uid | gid | mode | presence => rfl

theorem aspect_writeMetadata (key : Key) (text : String)
    (h : (Metadata.footprint name).contains difference = false) :
    (key.writeMetadata name text).aspect difference = key.aspect difference := by
  rw [writeMetadata, aspect_touched]
  apply aspect_withMetadata key _ h
  intro other hother
  rw [Metadata.get?_set, if_neg hother]

theorem aspect_dropMetadata (key : Key)
    (h : (Metadata.footprint name).contains difference = false) :
    (key.dropMetadata name).2.aspect difference = key.aspect difference := by
  rw [dropMetadata, aspect_touched]
  apply aspect_withMetadata key _ h
  intro other hother
  rw [Metadata.get?_erase, if_neg hother]

theorem contains_footprint_marker (h : difference ≠ .value) :
    (Metadata.footprint Metadata.binaryMarker).contains difference = false := by
  cases difference with
  | value => exact absurd rfl h
  | name | owner | comment | uid | gid | mode | presence => rfl

theorem aspect_setText {content : String} (hchange : (key.setText content).outcome = .ok changed)
    (h : difference ≠ .value) : changed.aspect difference = key.aspect difference := by
  obtain ⟨-, rfl⟩ := setText_eq_ok_iff.1 hchange
  have hdropped := aspect_dropMetadata { key with value := .text content }
    (contains_footprint_marker h)
  exact hdropped.trans (aspect_withValue key _ h)

theorem aspect_setBinary (key : Key) (content : List UInt8) (h : difference ≠ .value) :
    (key.setBinary content).aspect difference = key.aspect difference := by
  have hmarked := aspect_withMetadata { key with value := .binary content }
    (fun _ hother => Metadata.get?_setIfMissing_of_ne key.metadata hother "")
    (contains_footprint_marker h)
  rw [setBinary, aspect_touched]
  exact hmarked.trans (aspect_withValue key _ h)

theorem aspect_setMetadata (hchange : (key.setMetadata name text).outcome = .ok changed)
    (h : (Metadata.footprint name).contains difference = false) :
    changed.aspect difference = key.aspect difference := by
  obtain ⟨-, rfl⟩ := setMetadata_eq_ok_iff.1 hchange
  rw [aspect_writeMetadata _ text h]
  split
  · rename_i hconverted
    obtain ⟨rfl, -⟩ := hconverted
    apply aspect_withValue
    rintro rfl
    cases h
  · rfl

theorem aspect_removeMetadata {removed : Option String}
    (hchange : (key.removeMetadata name).outcome = .ok (removed, changed))
    (h : (Metadata.footprint name).contains difference = false) :
    changed.aspect difference = key.aspect difference := by
  obtain ⟨-, ⟨decoded, -, -, rfl, rfl⟩ | ⟨-, rfl⟩⟩ := removeMetadata_eq_ok hchange
  · have hdropped := aspect_dropMetadata { key with value := .text decoded } h
    apply hdropped.trans (aspect_withValue key _ _)
    rintro rfl
    cases h
  · exact aspect_dropMetadata key h

/-- A change that is not refused keeps all aspects outside its footprint. -/
theorem aspect_of_apply {change : Edit} (hchange : (key.apply change).outcome = .ok changed)
    (h : change.footprint.contains difference = false) :
    changed.aspect difference = key.aspect difference := by
  have hne {own : Difference} (hown : (DiffMask.only own).contains difference = false) :
      difference ≠ own := by
    rwa [DiffMask.contains_only, beq_eq_false_iff_ne] at hown
  cases change with
  | setName text =>
    obtain ⟨read, -, rfl⟩ := setName_eq_ok_iff.1 hchange
    rw [aspect_touched]
    exact aspect_withName key _ (hne h)
  | addBaseName segment =>
    obtain ⟨base, joined, -, -, rfl⟩ := addBaseName_eq_ok_iff.1 hchange
    rw [aspect_touched]
    exact aspect_withName key _ (hne h)
  | setText content => exact aspect_setText hchange (hne h)
  | setBinary content =>
    cases hchange
    exact aspect_setBinary key content (hne h)
  | clearValue =>
    cases hchange
    rw [clearValue, aspect_touched]
    exact aspect_withValue key _ (hne h)
  | setMetadata name text => exact aspect_setMetadata hchange h
  | removeMetadata name => exact aspect_removeMetadata (apply_removeMetadata_eq_ok hchange) h
  | setOwner owner =>
    cases hchange
    exact aspect_writeMetadata key _ h
  | setComment comment =>
    cases hchange
    exact aspect_writeMetadata key _ h
  | setPermissions permissions | setUid uid | setGid gid | setMode mode =>
    cases hchange
    cases difference with
    | uid | gid | mode => first | rfl | cases h
    | name | value | owner | comment | presence => rfl
  | clearSync =>
    cases hchange
    cases difference <;> rfl

theorem aspect_name_of_addBaseName {segment : String}
    (h : (key.addBaseName segment).outcome = .ok changed) :
    key.aspect .name ≠ changed.aspect .name := by
  obtain ⟨base, joined, hbase, hjoin, rfl⟩ := addBaseName_eq_ok_iff.1 h
  have hbaseText : key.aspect .name = base.escaped :=
    congrArg (·.elim "" Name.escaped) hbase
  rw [hbaseText]
  exact Name.escaped_ne_of_join hjoin

end Key

namespace DiffMask

variable {model : PermissionModel} {key changed : Key}

theorem only_subset {mask : DiffMask} {difference : Difference}
    (h : mask.contains difference = true) : only difference ⊆ mask := by
  intro other hother
  rw [contains_only, beq_iff_eq] at hother
  rwa [hother]

theorem ofKeys_subset_footprint {change : Edit}
    (h : (key.apply change).outcome = .ok changed) :
    ofKeys model key changed ⊆ change.footprint := by
  intro difference hmem
  obtain ⟨-, hne⟩ := contains_ofKeys_iff.1 hmem
  rw [← Bool.not_eq_false]
  intro houtside
  exact hne (Key.aspect_of_apply h houtside).symm

theorem ofKeys_of_addBaseName {segment : String}
    (h : (key.apply (.addBaseName segment)).outcome = .ok changed) :
    ofKeys model key changed = only .name := by
  apply subset_antisymm (ofKeys_subset_footprint h)
  apply only_subset
  exact contains_ofKeys_iff.2 ⟨rfl, Key.aspect_name_of_addBaseName h⟩

theorem ofKeys_of_subset_value (h : ofKeys model key changed ⊆ only .value) :
    ofKeys model key changed =
      if key.value.storedBytes = changed.value.storedBytes then empty else only .value := by
  split
  · rename_i hstored
    apply subset_antisymm _ (empty_subset _)
    intro difference hmem
    have hvalue := h difference hmem
    rw [only, contains_ofPred, beq_iff_eq] at hvalue
    subst hvalue
    exact absurd hstored (contains_ofKeys_iff.1 hmem).2
  · rename_i hstored
    apply subset_antisymm h
    apply only_subset
    exact contains_ofKeys_iff.2 ⟨rfl, hstored⟩

theorem ofKeys_of_setMarker {text : String}
    (h : (key.apply (.setMetadata Metadata.binaryMarker text)).outcome = .ok changed) :
    ofKeys model key changed = if key.value.isText then only .value else empty := by
  rw [ofKeys_of_subset_value (ofKeys_subset_footprint h)]
  obtain ⟨-, rfl⟩ := Key.setMetadata_eq_ok_iff.1 h
  cases hvalue : key.value with
  | absent | binary content => simp [Key.writeMetadata, Key.touched, Value.isText, hvalue]
  | text content =>
    simp [Key.writeMetadata, Key.touched, Value.isText, Value.storedBytes, Value.bytes]

theorem ofKeys_of_removeMarker
    (h : (key.apply (.removeMetadata Metadata.binaryMarker)).outcome = .ok changed) :
    ofKeys model key changed = if key.binary?.isSome then only .value else empty := by
  rw [ofKeys_of_subset_value (ofKeys_subset_footprint h)]
  obtain ⟨-, ⟨decoded, hvalue, -, -, rfl⟩ | ⟨hkept, rfl⟩⟩ :=
    Key.removeMetadata_eq_ok (Key.apply_removeMetadata_eq_ok h)
  · simp [Key.touched, Key.binary?, Value.storedBytes, hvalue]
  · cases hvalue : key.value with
    | binary content => exact absurd rfl (hkept content hvalue)
    | absent | text content => simp [Key.touched, Key.binary?, hvalue]

end DiffMask

namespace InPlace

open DiffMask (diff ofKeys)

/-- The differences that the changes can make, where those refused on their turn make none. -/
def footprint (holder : Holder) : List Edit → DiffMask
  | [] => .empty
  | change :: edits =>
    match run (edit change) holder with
    | (.ok _, next) => change.footprint ∪ footprint next edits
    | (.error _, next) => footprint next edits

variable {model : PermissionModel} {holder next : Holder} {change : Edit}

theorem apply_of_run_edit (h : run (edit change) holder = (.ok (), next)) :
    (holder.key.apply change).outcome = .ok next.key := by
  have houtcome := fst_run_edit change holder
  rw [h] at houtcome
  obtain ⟨changed, hchanged, -⟩ := Attempt.outcome_map_eq_ok_iff.1 houtcome.symm
  have hkey := key_run_edit change holder
  rw [h, Key.after_of_ok hchanged] at hkey
  rw [hchanged, ← hkey]

theorem exists_run_edit {changed : Key} (h : (holder.key.apply change).outcome = .ok changed) :
    ∃ next, run (edit change) holder = (.ok (), next) := by
  rw [run_edit, Attempt.settle, h]
  exact ⟨_, rfl⟩

theorem runAll_cons (holder : Holder) (change : Edit) (edits : List Edit) :
    runAll holder (change :: edits) = runAll (run (edit change) holder).2 edits :=
  rfl

theorem ofKeys_runAll_subset (model : PermissionModel) (holder : Holder) (edits : List Edit) :
    ofKeys model holder.key (runAll holder edits).key ⊆ footprint holder edits := by
  induction edits generalizing holder with
  | nil =>
    have hself := DiffMask.ofKeys_self model holder.key
    exact hself ▸ DiffMask.empty_subset _
  | cons change edits ih =>
    rw [runAll_cons, footprint]
    cases hrun : run (edit change) holder with
    | mk outcome next =>
      cases outcome with
      | ok done =>
        have hstep : ofKeys model holder.key next.key ⊆ change.footprint :=
          DiffMask.ofKeys_subset_footprint (apply_of_run_edit hrun)
        have hway := DiffMask.ofKeys_triangle model holder.key next.key (runAll next edits).key
        exact DiffMask.subset_trans hway (DiffMask.union_subset_union hstep (ih next))
      | error error =>
        obtain rfl := eq_of_run_edit hrun
        exact ih next

/-- After any changes a key differs only where one that was not refused may leave a trace. -/
theorem runAll_differs_within_footprint (model : PermissionModel) (holder : Holder)
    (edits : List Edit) :
    diff model (some holder.key) (some (runAll holder edits).key) ⊆ footprint holder edits ∧
    (∀ segment next, run (edit (.addBaseName segment)) holder = (.ok (), next) →
      diff model (some holder.key) (some next.key) = .only .name) ∧
    (∀ text, ∃ next, run (edit (.setMetadata "binary" text)) holder = (.ok (), next) ∧
      diff model (some holder.key) (some next.key) =
        if holder.key.value.isText then .only .value else .empty) ∧
    (∀ next, run (edit (.removeMetadata "binary")) holder = (.ok (), next) →
      diff model (some holder.key) (some next.key) =
        if holder.key.binary?.isSome then .only .value else .empty) ∧
    (∀ error next, run (edit (.removeMetadata "binary")) holder = (.error error, next) →
      diff model (some holder.key) (some next.key) = .empty) := by
  refine ⟨ofKeys_runAll_subset model holder edits, ?_, ?_, ?_, ?_⟩
  · intro segment next hrun
    exact DiffMask.ofKeys_of_addBaseName (apply_of_run_edit hrun)
  · intro text
    have hmarked : (holder.key.apply (.setMetadata "binary" text)).outcome = .ok _ :=
      Key.setMetadata_eq_ok_iff.2 ⟨by decide, rfl⟩
    obtain ⟨next, hrun⟩ := exists_run_edit hmarked
    exact ⟨next, hrun, DiffMask.ofKeys_of_setMarker (apply_of_run_edit hrun)⟩
  · intro next hrun
    exact DiffMask.ofKeys_of_removeMarker (apply_of_run_edit hrun)
  · intro error next hrun
    obtain rfl := eq_of_run_edit hrun
    exact DiffMask.ofKeys_self model next.key

end InPlace

end Keyspace
