import Keyspace.Proofs.Container.Capacity

namespace Keyspace

variable {α : Type} {discipline : Discipline α}

namespace Capacity

variable {capacity : Capacity} {size : Nat}

/-- The capacity is at least the initial one and at most the limit. -/
structure Bounded (capacity : Capacity) : Prop where
  initial_pos : 0 < capacity.initial
  initial_le : capacity.initial ≤ capacity.current
  current_le : capacity.current ≤ limit

/-- More than a quarter of a capacity above the initial one is taken. -/
def Dense (capacity : Capacity) (size : Nat) : Prop :=
  capacity.initial < capacity.current → capacity.current / 4 < size

theorem bounded_new {initial : Nat} (hpos : 0 < initial) (hlimit : initial ≤ limit) :
    Bounded ⟨initial, initial⟩ where
  initial_pos := hpos
  initial_le := Nat.le_refl initial
  current_le := hlimit

theorem dense_new (initial size : Nat) : Dense ⟨initial, initial⟩ size :=
  fun hlarge => (Nat.lt_irrefl initial hlarge).elim

theorem Bounded.beforeInsert (h : capacity.Bounded) (size : Nat) :
    (capacity.beforeInsert size).1.Bounded := by
  rcases Nat.lt_or_ge size capacity.current with hroom | hfull
  · rwa [beforeInsert_of_lt hroom]
  · have hlow := h.initial_le
    have hhigh := h.current_le
    rw [beforeInsert_of_le hfull]
    refine ⟨h.initial_pos, ?_, Nat.min_le_right _ _⟩
    dsimp only [growthFactor]
    omega

theorem Bounded.afterRemove (h : capacity.Bounded) (size : Nat) :
    (capacity.afterRemove size).1.Bounded := by
  rw [Capacity.afterRemove]
  split
  · exact h
  · have hlow := h.initial_le
    have hhigh := h.current_le
    refine ⟨h.initial_pos, Nat.le_max_right _ _, ?_⟩
    dsimp only [growthFactor]
    omega

theorem Dense.beforeInsert (h : capacity.Dense size) :
    (capacity.beforeInsert size).1.Dense (size + 1) := by
  rcases Nat.lt_or_ge size capacity.current with hroom | hfull
  · rw [beforeInsert_of_lt hroom]
    exact fun hlarge => Nat.lt_succ_of_lt (h hlarge)
  · rw [beforeInsert_of_le hfull, Dense]
    dsimp only [growthFactor]
    omega

theorem Dense.afterRemove (hpos : 0 < capacity.initial) (h : capacity.Dense (size + 1)) :
    (capacity.afterRemove size).1.Dense size := by
  rw [Capacity.afterRemove]
  split
  · rename_i hkeep
    intro hlarge
    exact hkeep.resolve_left (Nat.not_le.2 hlarge)
  · rename_i hshrink
    rw [not_or, Nat.not_le, Nat.not_lt] at hshrink
    obtain ⟨hlarge, hsparse⟩ := hshrink
    have hquarter := h hlarge
    -- just a quarter of the old capacity is taken, and so half of the new one
    dsimp only [Dense, sparseDivisor, growthFactor] at hsparse ⊢
    omega

end Capacity

namespace Container

variable {container : Container discipline}

/-- The capacity keeps to its bounds, and above the initial one it suits the number of items. -/
structure Settled (container : Container discipline) : Prop where
  bounded : container.capacity.Bounded
  dense : container.capacity.Dense container.size

theorem settled_new (discipline : Discipline α) {initial : Nat} (hpos : 0 < initial)
    (hlimit : initial ≤ Capacity.limit) :
    Settled (⟨#[], ⟨initial, initial⟩⟩ : Container discipline) where
  bounded := Capacity.bounded_new hpos hlimit
  dense := Capacity.dense_new initial 0

theorem Settled.insert (hlawful : discipline.Lawful) (h : container.Settled) (item : α) :
    (container.insert item).1.Settled where
  bounded := h.bounded.beforeInsert container.size
  dense := by
    rw [size_insert hlawful]
    exact h.dense.beforeInsert

theorem Settled.of_remove (hlawful : discipline.Lawful) (h : container.Settled) {item : α}
    {after : Container discipline} {change : Option CapacityChange}
    (hremove : container.remove = .ok (item, after, change)) : after.Settled := by
  have hdense := h.dense
  rw [size_of_remove hlawful hremove] at hdense
  constructor
  · rw [(of_remove_eq_ok hremove).2.1]
    exact h.bounded.afterRemove after.size
  · rw [(of_remove_eq_ok hremove).2.1]
    exact hdense.afterRemove h.bounded.initial_pos

theorem Settled.serve (hlawful : discipline.Lawful) (h : container.Settled)
    (request : Request α) : (container.serve request).1.Settled := by
  cases request with
  | insert item => exact h.insert hlawful item
  | remove => exact kept_serve_remove Settled h fun hremove => h.of_remove hlawful hremove

theorem Settled.run (hlawful : discipline.Lawful) (h : container.Settled)
    (requests : List (Request α)) : (container.run requests).1.Settled :=
  run_invariant Settled (fun _ => True) (fun _ request hsettled _ => hsettled.serve hlawful request)
    h requests fun _ _ => trivial

/-- An emptied container is back at its initial capacity. -/
theorem Settled.current_drain (hlawful : discipline.Lawful) (h : container.Settled) :
    container.drain.1.capacity.current = container.capacity.initial := by
  have hsettled : container.drain.1.Settled := h.run hlawful _
  have hempty : container.drain.1.size = 0 :=
    stored_eq_zero_iff_size.1 (stored_drain hlawful container)
  have hinitial : container.drain.1.capacity.initial = container.capacity.initial :=
    initial_run container _
  have hdense := hsettled.dense
  rw [hempty] at hdense
  rw [← hinitial]
  refine Nat.le_antisymm (Nat.not_lt.1 fun hlarge => ?_) hsettled.bounded.initial_le
  exact Nat.not_lt_zero _ (hdense hlarge)

end Container

end Keyspace
