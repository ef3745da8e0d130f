import Keyspace.Key.Diff
import Keyspace.Proofs.Key.Reachable
import Keyspace.Proofs.Key.Refusal

namespace Keyspace

namespace InPlace

variable {holder : Holder} {edits : List Edit}

/-- Each of the changes is refused when its turn comes. -/
def RefusesAll (holder : Holder) : List Edit → Prop
  | [] => True
  | change :: edits =>
    (∃ error, (run (edit change) holder).1 = .error error) ∧
      RefusesAll (run (edit change) holder).2 edits

theorem RefusesAll.runAll_eq (h : RefusesAll holder edits) : runAll holder edits = holder := by
  induction edits with
  | nil => rfl
  | cons change edits ih =>
    obtain ⟨⟨error, herror⟩, hrest⟩ := h
    have hkept : (run (edit change) holder).2 = holder := by
      rw [run_edit_of_refused (refused_of_run_edit herror)]
    rw [hkept] at hrest
    change runAll (run (edit change) holder).2 edits = holder
    rw [hkept, ih hrest]

theorem needsSync_run_edit {change : Edit} (h : (run (edit change) holder).1 = .ok ())
    (hchange : change ≠ .clearSync) : (run (edit change) holder).2.key.needsSync = true := by
  rw [run_edit, Attempt.settle] at h ⊢
  cases houtcome : (holder.key.apply change).outcome with
  | ok changed => exact Key.needsSync_of_apply houtcome hchange
  | error error =>
    rw [houtcome] at h
    cases h

theorem needsSync_runAll (h : holder.key.needsSync = true) (hedits : .clearSync ∉ edits) :
    (runAll holder edits).key.needsSync = true := by
  rw [key_runAll]
  exact Key.needsSync_afterAll h hedits

/-- A change that is not refused leaves a mark that only synchronisation takes away. -/
theorem refusesAll_of_needsSync_eq_false (h : (runAll holder edits).key.needsSync = false)
    (hedits : .clearSync ∉ edits) : RefusesAll holder edits := by
  induction edits generalizing holder with
  | nil => trivial
  | cons change edits ih =>
    have hchange : change ≠ .clearSync := (List.ne_of_not_mem_cons hedits).symm
    have hrest : .clearSync ∉ edits := List.not_mem_of_not_mem_cons hedits
    refine ⟨?_, ih h hrest⟩
    cases houtcome : (run (edit change) holder).1 with
    | error error => exact ⟨error, rfl⟩
    | ok done =>
      have hmarked := needsSync_runAll (needsSync_run_edit houtcome hchange) hrest
      rw [runAll, List.foldl_cons] at h
      rw [runAll, h] at hmarked
      cases hmarked

theorem exists_last_clearSync (h : .clearSync ∈ edits) :
    ∃ earlier later, edits = earlier ++ .clearSync :: later ∧ .clearSync ∉ later := by
  obtain ⟨later, earlier, hsplit, hnot⟩ := List.eq_append_cons_of_mem (List.mem_reverse.2 h)
  refine ⟨earlier.reverse, later.reverse, ?_, fun hmem => hnot (List.mem_reverse.1 hmem)⟩
  rw [← List.reverse_reverse edits, hsplit, List.reverse_append, List.reverse_cons,
    List.append_assoc, List.singleton_append]

theorem runAll_append (holder : Holder) (earlier later : List Edit) :
    runAll holder (earlier ++ later) = runAll (runAll holder earlier) later :=
  List.foldl_append

theorem runAll_split (holder : Holder) (earlier later : List Edit) :
    runAll holder (earlier ++ .clearSync :: later) =
      runAll (runAll holder (earlier ++ [.clearSync])) later := by
  rw [← runAll_append, List.append_assoc, List.singleton_append]

theorem needsSync_runAll_clearSync (holder : Holder) (earlier : List Edit) :
    (runAll holder (earlier ++ [.clearSync])).key.needsSync = false := by
  rw [runAll_append]
  rfl

theorem needsSync_runAll_eq_false_iff (h : holder.key.needsSync = true) :
    (runAll holder edits).key.needsSync = false ↔
      ∃ earlier later, edits = earlier ++ .clearSync :: later ∧ .clearSync ∉ later ∧
        RefusesAll (runAll holder (earlier ++ [.clearSync])) later := by
  constructor
  · intro hclean
    have hcleared : .clearSync ∈ edits := by
      by_contra hnever
      rw [needsSync_runAll h hnever] at hclean
      cases hclean
    obtain ⟨earlier, later, rfl, hlater⟩ := exists_last_clearSync hcleared
    rw [runAll_split] at hclean
    exact ⟨earlier, later, rfl, hlater, refusesAll_of_needsSync_eq_false hclean hlater⟩
  · rintro ⟨earlier, later, rfl, -, hrefused⟩
    rw [runAll_split, hrefused.runAll_eq, needsSync_runAll_clearSync]

end InPlace

namespace Key

open InPlace (RefusesAll runAll)

variable {key : Key}

theorem Fresh.needsSync_eq_true (h : key.Fresh) : key.needsSync = true := by
  cases h with
  | nameless => rfl
  | @named text _ h =>
    have happly : (Key.nameless.apply (.setName text)).outcome = .ok key := h
    have hchange : Edit.setName text ≠ .clearSync := by simp
    exact needsSync_of_apply happly hchange
  | @built draft _ h =>
    rw [Draft.build_eq_ok h, Draft.edits, afterAll_append]
    have hlast : Edit.setPermissions draft.permissions ≠ .clearSync := by simp
    exact needsSync_of_apply rfl hlast

/-- No synchronisation is needed exactly when all changes since the last one were refused. -/
theorem Fresh.needsSync_iff_changed (h : key.Fresh) (edits : List Edit) :
    ((runAll { key } edits).key.needsSync = false ↔
      ∃ earlier later, edits = earlier ++ .clearSync :: later ∧ .clearSync ∉ later ∧
        RefusesAll (runAll { key } (earlier ++ [.clearSync])) later) ∧
    ∀ earlier later, edits = earlier ++ .clearSync :: later → .clearSync ∉ later →
      let synced := (runAll { key } (earlier ++ [.clearSync])).key
      let final := (runAll { key } edits).key
      (final.needsSync = false →
        final.name = synced.name ∧ final.value = synced.value ∧
          final.metadata = synced.metadata ∧ final.permissions = synced.permissions ∧
          ∀ model, DiffMask.diff model (some synced) (some final) = .empty) ∧
      (final.name ≠ synced.name ∨ final.value ≠ synced.value ∨
          final.metadata ≠ synced.metadata ∨ final.permissions ≠ synced.permissions →
        final.needsSync = true) := by
  refine ⟨InPlace.needsSync_runAll_eq_false_iff h.needsSync_eq_true, ?_⟩
  intro earlier later hsplit hlater synced final
  have hkept : final.needsSync = false → final = synced := by
    intro hclean
    have hfinal : final = (runAll (runAll { key } (earlier ++ [.clearSync])) later).key := by
      rw [← InPlace.runAll_split, ← hsplit]
    rw [hfinal] at hclean ⊢
    rw [(InPlace.refusesAll_of_needsSync_eq_false hclean hlater).runAll_eq]
  constructor
  · intro hclean
    rw [hkept hclean]
    exact ⟨rfl, rfl, rfl, rfl, fun model => DiffMask.ofKeys_self model synced⟩
  · intro hdiffers
    rw [← Bool.not_eq_false]
    intro hclean
    rw [hkept hclean] at hdiffers
    obtain hname | hvalue | hmetadata | hpermissions := hdiffers
    · exact hname rfl
    · exact hvalue rfl
    · exact hmetadata rfl
    · exact hpermissions rfl

theorem clean_after_refusals :
    let earlier : List Edit := [.setBinary [118, 0], .clearSync, .setOwner "me"]
    let later : List Edit :=
      [.addBaseName "..", .setText "\x00", .setMetadata "" "y", .removeMetadata "binary"]
    ∃ key, (Key.named "user//a").outcome = .ok key ∧
      (runAll { key } (earlier ++ .clearSync :: later)).key.needsSync = false := by
  intro earlier later
  let key : Key := { name := some ⟨"user/a", ["user", "a"]⟩ }
  have hnamed : (Key.named "user//a").outcome = .ok key := by decide +kernel
  obtain ⟨hclean, -⟩ := Fresh.needsSync_iff_changed (.named hnamed) (earlier ++ .clearSync :: later)
  refine ⟨key, hnamed, hclean.2 ⟨earlier, later, rfl, by decide, ?_⟩⟩
  exact ⟨⟨.invalidName ".." .relativeSegment, by decide +kernel⟩, ⟨.embeddedNul, by decide +kernel⟩,
    ⟨.invalidName "" .emptyMetadataName, by decide +kernel⟩, ⟨.embeddedNul, by decide +kernel⟩,
    trivial⟩

end Key

end Keyspace
