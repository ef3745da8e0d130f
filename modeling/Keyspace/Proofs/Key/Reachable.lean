import Keyspace.Key.Draft
import Keyspace.Proofs.Key.Edit
import Keyspace.Proofs.Key.Relation

namespace Keyspace

namespace Draft

def storing : Value → List Edit
  | .absent => []
  | .text content => [.setText content]
  | .binary content => [.setBinary content]

/-- The changes that give a nameless key all of a draft but its permissions. -/
def describing (draft : Draft) : List Edit :=
  .setName draft.name :: storing draft.value ++
    draft.metadata.map (fun entry => .setMetadata entry.1 entry.2)

def edits (draft : Draft) : List Edit :=
  draft.describing ++ [.setPermissions draft.permissions]

theorem clearSync_not_mem_describing (draft : Draft) : .clearSync ∉ draft.describing := by
  cases hvalue : draft.value <;> simp [describing, hvalue, storing]

variable {key stored : Key}

theorem storeValue_eq_ok {value : Value} (h : (storeValue key value).outcome = .ok stored) :
    stored = key.afterAll (storing value) := by
  cases value with
  | absent =>
    cases h
    rfl
  | text content =>
    have hafter : key.after (.setText content) = stored := Key.after_of_ok h
    exact hafter.symm
  | binary content =>
    cases h
    rfl

theorem storeMetadata_eq_ok {entries : List (String × String)}
    (h : (storeMetadata key entries).outcome = .ok stored) :
    stored = key.afterAll (entries.map fun entry => .setMetadata entry.1 entry.2) := by
  induction entries generalizing key with
  | nil =>
    cases h
    rfl
  | cons entry entries ih =>
    obtain ⟨name, text⟩ := entry
    rw [storeMetadata] at h
    obtain ⟨next, hnext, hrest⟩ := Attempt.outcome_bind_eq_ok_iff.1 h
    have hafter : key.after (.setMetadata name text) = next := Key.after_of_ok hnext
    rw [ih hrest, ← hafter]
    rfl

theorem build_eq_ok {draft : Draft} (h : draft.build.outcome = .ok key) :
    key = Key.nameless.afterAll draft.edits := by
  rw [build] at h
  obtain ⟨named, hnamed, h⟩ := Attempt.outcome_bind_eq_ok_iff.1 h
  obtain ⟨valued, hvalued, h⟩ := Attempt.outcome_bind_eq_ok_iff.1 h
  obtain ⟨described, hdescribed, h⟩ := Attempt.outcome_bind_eq_ok_iff.1 h
  have hname : Key.nameless.after (.setName draft.name) = named := Key.after_of_ok hnamed
  have hhistory : described = Key.nameless.afterAll draft.describing := by
    rw [storeMetadata_eq_ok hdescribed, storeValue_eq_ok hvalued, ← hname, describing,
      Key.afterAll, Key.afterAll, Key.afterAll, List.foldl_append]
    rfl
  -- building stores the permissions without a mark, which a key so new carries already
  have hsync : described.needsSync = true := by
    rw [hhistory]
    exact Key.needsSync_afterAll rfl draft.clearSync_not_mem_describing
  have hpermissions : described.setPermissions draft.permissions =
      { described with permissions := draft.permissions } := by
    rw [Key.setPermissions, Key.touched, ← hsync]
  cases h
  rw [← hpermissions, edits, Key.afterAll, List.foldl_append, hhistory]
  rfl

end Draft

namespace Key

inductive Fresh : Key → Prop
  | nameless : Fresh nameless
  | named {text : String} {key : Key} (h : (named text).outcome = .ok key) : Fresh key
  | built {draft : Draft} {key : Key} (h : draft.build.outcome = .ok key) : Fresh key

/-- The key was made and then changed any number of times, where a change may be refused. -/
inductive Reachable : Key → Prop
  | fresh {key : Key} (h : Fresh key) : Reachable key
  | after {key : Key} (h : Reachable key) (change : Edit) : Reachable (key.after change)

variable {key : Key}

theorem Fresh.exists_edits (h : key.Fresh) : ∃ edits, key = Key.nameless.afterAll edits := by
  cases h with
  | nameless => exact ⟨[], rfl⟩
  | @named text _ h =>
    have hafter : Key.nameless.after (.setName text) = key := after_of_ok h
    exact ⟨[.setName text], hafter.symm⟩
  | @built draft _ h => exact ⟨draft.edits, Draft.build_eq_ok h⟩

theorem Reachable.afterAll (h : key.Reachable) (edits : List Edit) :
    (key.afterAll edits).Reachable := by
  induction edits generalizing key with
  | nil => exact h
  | cons change edits ih => exact ih (h.after change)

theorem reachable_iff : key.Reachable ↔ ∃ edits, key = nameless.afterAll edits := by
  constructor
  · intro h
    induction h with
    | fresh h => exact h.exists_edits
    | after _ change ih =>
      obtain ⟨edits, rfl⟩ := ih
      refine ⟨edits ++ [change], ?_⟩
      rw [Key.afterAll, Key.afterAll, List.foldl_append]
      rfl
  · intro hhistory
    obtain ⟨edits, rfl⟩ := hhistory
    exact (Reachable.fresh .nameless).afterAll edits

theorem Reachable.invariant {P : Key → Prop} (hnameless : P nameless)
    (hstep : ∀ key changed change, P key → (key.apply change).outcome = .ok changed → P changed)
    (h : key.Reachable) : P key := by
  obtain ⟨edits, rfl⟩ := reachable_iff.1 h
  clear h
  generalize nameless = start at hnameless ⊢
  induction edits generalizing start with
  | nil => exact hnameless
  | cons change edits ih =>
    apply ih
    rw [Key.after]
    cases houtcome : (start.apply change).outcome with
    | ok changed => exact hstep start changed change hnameless houtcome
    | error error => exact hnameless

theorem NameReachable.apply {changed : Key} {change : Edit} (h : key.NameReachable)
    (hchange : (key.apply change).outcome = .ok changed) : changed.NameReachable := by
  cases change with
  | setName text =>
    obtain ⟨name, hread, rfl⟩ := setName_eq_ok_iff.1 hchange
    rintro _ ⟨⟩
    exact .parse hread
  | addBaseName segment =>
    obtain ⟨name, joined, hname, hjoin, rfl⟩ := addBaseName_eq_ok_iff.1 hchange
    rintro _ ⟨⟩
    exact .join (h name hname) hjoin
  | setText content =>
    obtain ⟨-, rfl⟩ := setText_eq_ok_iff.1 hchange
    exact h
  | setMetadata name text =>
    obtain ⟨-, rfl⟩ := setMetadata_eq_ok_iff.1 hchange
    split
    · exact h
    · exact h
  | removeMetadata name =>
    obtain ⟨-, ⟨decoded, -, -, -, rfl⟩ | ⟨-, rfl⟩⟩ :=
      removeMetadata_eq_ok (apply_removeMetadata_eq_ok hchange)
    · exact h
    · exact h
  | setBinary content | clearValue | setOwner owner | setComment comment
  | setPermissions permissions | setUid uid | setGid gid | setMode mode | clearSync =>
    cases hchange
    exact h

theorem Reachable.nameReachable (h : key.Reachable) : key.NameReachable := by
  apply h.invariant
  · rintro _ ⟨⟩
  · intro key changed change hkey hchange
    exact hkey.apply hchange

end Key

end Keyspace
