import Keyspace.Proofs.Container.Capacity

namespace Keyspace

variable {α : Type} {discipline : Discipline α}

/-- The changes of capacity that the replies report, in their order. -/
def changes (replies : List (Reply α)) : List CapacityChange :=
  replies.filterMap Reply.change

theorem changes_cons_of_none {reply : Reply α} (h : reply.change = none)
    (replies : List (Reply α)) : changes (reply :: replies) = changes replies :=
  List.filterMap_cons_none h

theorem changes_cons_of_some {reply : Reply α} {change : CapacityChange}
    (h : reply.change = some change) (replies : List (Reply α)) :
    changes (reply :: replies) = change :: changes replies :=
  List.filterMap_cons_some h

namespace CapacityChange

/-- The changes lead from one capacity to another: each starts where the one before it ended. -/
def Lead (start final : Nat) : List CapacityChange → Prop
  | [] => start = final
  | change :: changes => change.resize.old = start ∧ Lead change.resize.new final changes

/-- The change comes just in time, and does not go below the initial capacity. -/
inductive Due (initial : Nat) : CapacityChange → Prop
  | grow {full : Nat} (h : initial ≤ full) : Due initial ⟨.grow, ⟨full, 2 * full⟩, full⟩
  | shrink {half : Nat} (h : initial ≤ half) : Due initial ⟨.shrink, ⟨2 * half, half⟩, half / 2⟩

/-- The number of items once the request has been served that changed the capacity. -/
def sizeAfter (change : CapacityChange) : Nat :=
  match change.direction with
  | .grow => change.size + 1
  | .shrink => change.size

variable {initial : Nat} {change : CapacityChange}

theorem Due.of_grow (h : change.Due initial) (hdirection : change.direction = .grow) :
    change.resize.new = 2 * change.resize.old ∧ change.size = change.resize.old := by
  cases h with
  | grow => exact ⟨rfl, rfl⟩
  | shrink => cases hdirection

theorem Due.of_shrink (h : change.Due initial) (hdirection : change.direction = .shrink) :
    2 ∣ change.resize.old ∧ change.resize.new = change.resize.old / 2 ∧
      initial ≤ change.resize.new ∧ change.size = change.resize.old / 4 := by
  cases h with
  | grow => cases hdirection
  | @shrink half h =>
    dsimp only
    omega

theorem Due.size_le (h : change.Due initial) : change.size ≤ change.resize.new := by
  cases h with
  | grow h =>
    dsimp only
    omega
  | shrink h => exact Nat.div_le_self _ 2

theorem Due.lt_iff_grow (h : change.Due initial) (hinitial : 0 < initial) :
    change.resize.old < change.resize.new ↔ change.direction = .grow := by
  cases h with
  | grow h =>
    dsimp only
    exact iff_of_true (by omega) rfl
  | shrink h =>
    dsimp only
    exact iff_of_false (by omega) Direction.noConfusion

end CapacityChange

open CapacityChange (Lead Due)

namespace Container

variable {container : Container discipline}

/-- What a request does to the capacity of a container that suits its items. -/
inductive Adjusted (before after : Container discipline) : Option CapacityChange → Prop
  | kept (hcapacity : after.capacity = before.capacity) : Adjusted before after none
  | grown (hcurrent : after.capacity.current = 2 * before.capacity.current)
      (hfull : before.size = before.capacity.current) (hsize : after.size = before.size + 1) :
      Adjusted before after
        (some ⟨.grow, ⟨before.capacity.current, after.capacity.current⟩, before.size⟩)
  | shrunk (hcurrent : before.capacity.current = 2 * after.capacity.current)
      (hfloor : before.capacity.initial ≤ after.capacity.current)
      (hsparse : after.size = after.capacity.current / 2) (hsize : before.size = after.size + 1) :
      Adjusted before after
        (some ⟨.shrink, ⟨before.capacity.current, after.capacity.current⟩, after.size⟩)

theorem adjusted_insert (hlawful : discipline.Lawful)
    (h : container.capacity.Fits container.size) (item : α)
    (hlimit : ¬(container.serve (.insert item)).2.Saturated) :
    Adjusted container (container.insert item).1 (container.insert item).2 := by
  have hcapacity : (container.insert item).1.capacity =
    (container.capacity.beforeInsert container.size).1 := rfl
  have hchange : (container.insert item).2 =
    (container.capacity.beforeInsert container.size).2.map (⟨.grow, ·, container.size⟩) := rfl
  rcases h.beforeInsert_cases (le_limit_of_full hlimit) with ⟨-, heq⟩ | ⟨hfull, heq⟩
  · rw [heq] at hcapacity hchange
    rw [hchange]
    exact .kept hcapacity
  · rw [heq] at hcapacity hchange
    have hcurrent := congrArg Capacity.current hcapacity
    have hgrown := Adjusted.grown hcurrent hfull (size_insert hlawful container item)
    rw [hcurrent] at hgrown
    rw [hchange]
    exact hgrown

theorem adjusted_of_remove (hlawful : discipline.Lawful)
    (h : container.capacity.Fits container.size) {item : α} {after : Container discipline}
    {change : Option CapacityChange} (hremove : container.remove = .ok (item, after, change)) :
    Adjusted container after change := by
  obtain ⟨-, hcapacity, hchange⟩ := of_remove_eq_ok hremove
  have hsize := size_of_remove hlawful hremove
  rw [hsize] at h
  rcases h.afterRemove_cases with ⟨-, heq⟩ | ⟨k, hhalf, hsparse, heq⟩
  · rw [heq] at hcapacity hchange
    rw [hchange]
    exact .kept hcapacity
  · rw [heq] at hcapacity hchange
    have hcurrent := congrArg Capacity.current hcapacity
    dsimp only at hcurrent
    have hfloor : container.capacity.initial ≤ container.capacity.initial * 2 ^ k :=
      Nat.le_mul_of_pos_right _ (Nat.two_pow_pos k)
    rw [← hcurrent] at hhalf hsparse hfloor hchange
    rw [hchange]
    exact .shrunk hhalf hfloor hsparse hsize

theorem adjusted_serve (hlawful : discipline.Lawful)
    (h : container.capacity.Fits container.size) (request : Request α)
    (hlimit : ¬(container.serve request).2.Saturated) :
    Adjusted container (container.serve request).1 (container.serve request).2.change := by
  cases request with
  | insert item => exact adjusted_insert hlawful h item hlimit
  | remove =>
    cases hremove : container.remove with
    | error error =>
      rw [serve_remove_of_error hremove]
      exact .kept rfl
    | ok removed =>
      obtain ⟨item, after, change⟩ := removed
      rw [serve_remove_of_ok hremove]
      exact adjusted_of_remove hlawful h hremove

section

variable {before after : Container discipline} {change : CapacityChange}

theorem Adjusted.due (hfits : before.capacity.Fits before.size)
    (h : Adjusted before after (some change)) : change.Due before.capacity.initial := by
  cases h with
  | grown hcurrent hfull hsize =>
    rw [hcurrent, hfull]
    exact .grow hfits.initial_le
  | shrunk hcurrent hfloor hsparse hsize =>
    rw [hcurrent, hsparse]
    exact .shrink hfloor

theorem Adjusted.current_eq (h : Adjusted before after (some change)) :
    change.resize.old = before.capacity.current ∧ change.resize.new = after.capacity.current := by
  cases h with
  | grown => exact ⟨rfl, rfl⟩
  | shrunk => exact ⟨rfl, rfl⟩

theorem Adjusted.size_eq (h : Adjusted before after (some change)) :
    after.size = change.sizeAfter := by
  cases h with
  | grown hcurrent hfull hsize => exact hsize
  | shrunk => rfl

end

/-- An induction on the requests of a run on which no growth is cut short. -/
@[elab_as_elim]
theorem fitting_run_induction (hlawful : discipline.Lawful)
    {motive : Container discipline → List (Request α) → Prop}
    (h : container.capacity.Fits container.size) (requests : List (Request α))
    (hlimit : ∀ reply ∈ (container.run requests).2, ¬reply.Saturated)
    (nil : ∀ container, motive container [])
    (cons : ∀ container request requests, container.capacity.Fits container.size →
      Adjusted container (container.serve request).1 (container.serve request).2.change →
      motive (container.serve request).1 requests → motive container (request :: requests)) :
    motive container requests := by
  induction requests generalizing container with
  | nil => exact nil container
  | cons request requests ih =>
    have hfirst := hlimit _ List.mem_cons_self
    apply cons container request requests h (adjusted_serve hlawful h request hfirst)
    apply ih (fits_serve hlawful h request hfirst)
    intro reply hreply
    exact hlimit reply (List.mem_cons_of_mem _ hreply)

theorem lead_run (hlawful : discipline.Lawful) (h : container.capacity.Fits container.size)
    (requests : List (Request α))
    (hlimit : ∀ reply ∈ (container.run requests).2, ¬reply.Saturated) :
    Lead container.capacity.current (container.run requests).1.capacity.current
      (changes (container.run requests).2) := by
  refine fitting_run_induction hlawful h requests hlimit ?nil ?cons
  case nil =>
    intro container
    rfl
  case cons =>
    intro container request requests _ hadjusted hrest
    rw [run_cons]
    cases hchange : (container.serve request).2.change with
    | none =>
      rw [hchange] at hadjusted
      cases hadjusted with
      | kept hcapacity =>
        rw [changes_cons_of_none hchange, ← hcapacity]
        exact hrest
    | some change =>
      rw [hchange] at hadjusted
      obtain ⟨hold, hnew⟩ := hadjusted.current_eq
      rw [changes_cons_of_some hchange]
      rw [← hnew] at hrest
      exact ⟨hold, hrest⟩

theorem due_run (hlawful : discipline.Lawful) (h : container.capacity.Fits container.size)
    (requests : List (Request α))
    (hlimit : ∀ reply ∈ (container.run requests).2, ¬reply.Saturated) :
    ∀ change ∈ changes (container.run requests).2, change.Due container.capacity.initial := by
  refine fitting_run_induction hlawful h requests hlimit ?nil ?cons
  case nil =>
    intro container change hmem
    cases hmem
  case cons =>
    intro container request requests hfits hadjusted hrest
    rw [initial_serve] at hrest
    rw [run_cons]
    cases hchange : (container.serve request).2.change with
    | none =>
      rw [changes_cons_of_none hchange]
      exact hrest
    | some change =>
      rw [hchange] at hadjusted
      rw [changes_cons_of_some hchange, List.forall_mem_cons]
      exact ⟨hadjusted.due hfits, hrest⟩

/-- The changes of capacity lead from the initial one to the present one, each of them in time. -/
theorem changes_lead_on_time
    (hkind : discipline = .lifo α ∨ ∃ higher, discipline = .priority higher)
    {initial : Nat} (hinitial : 0 < initial) :
    ∃ start, ofInitial discipline initial = .ok start ∧ ∀ requests : List (Request α),
      (∀ reply ∈ (start.run requests).2, ¬reply.Saturated) →
      let container := (start.run requests).1
      let replies := (start.run requests).2
      replies.length = requests.length ∧
      Lead initial container.capacity.current (changes replies) ∧
      ∀ change ∈ changes replies,
        (change.direction = .grow →
          change.resize.new = 2 * change.resize.old ∧ change.size = change.resize.old) ∧
        (change.direction = .shrink →
          2 ∣ change.resize.old ∧ change.resize.new = change.resize.old / 2 ∧
            initial ≤ change.resize.new ∧ change.size = change.resize.old / 4) ∧
        change.size ≤ change.resize.new ∧
        (change.resize.old < change.resize.new ↔ change.direction = .grow) := by
  let start : Container discipline := ⟨#[], ⟨initial, initial⟩⟩
  refine ⟨start, ofInitial_of_pos discipline hinitial, ?_⟩
  intro requests hlimit container replies
  have hlawful := Discipline.lawful_of_kind hkind
  have hfits : start.capacity.Fits start.size := Capacity.fits_new hinitial
  refine ⟨length_run start requests, lead_run hlawful hfits requests hlimit, ?_⟩
  intro change hmem
  have hdue : change.Due initial := due_run hlawful hfits requests hlimit change hmem
  exact ⟨hdue.of_grow, hdue.of_shrink, hdue.size_le, hdue.lt_iff_grow hinitial⟩

theorem changes_of_overfilled_stack :
    ∃ start : Stack Nat, ofInitial (.lifo Nat) 3 = .ok start ∧
      let requests := List.replicate 4 (.insert 0) ++ List.replicate 5 .remove
      changes (start.run requests).2 = [⟨.grow, ⟨3, 6⟩, 3⟩, ⟨.shrink, ⟨6, 3⟩, 1⟩] ∧
      Lead 3 3 (changes (start.run requests).2) := by
  obtain ⟨start, hstart, hrun⟩ :=
    changes_lead_on_time (.inl (Eq.refl (Discipline.lifo Nat))) (Nat.succ_pos 2)
  refine ⟨start, hstart, ?_⟩
  cases hstart
  intro requests
  obtain ⟨-, hlead, -⟩ := hrun requests (by decide)
  exact ⟨by decide, hlead⟩

end Container

end Keyspace
