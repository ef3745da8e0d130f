import Mathlib.Algebra.Group.Nat.Defs
import Keyspace.Proofs.Container.Discipline

namespace Keyspace

variable {α : Type} {discipline : Discipline α}

namespace Capacity

variable {capacity : Capacity} {size : Nat}

/-- A capacity that suits a number of items. -/
structure Fits (capacity : Capacity) (size : Nat) : Prop where
  initial_pos : 0 < capacity.initial
  size_le : size ≤ capacity.current
  doubled : ∃ k, capacity.current = capacity.initial * 2 ^ k
  not_sparse : capacity.initial < capacity.current → capacity.current / 4 < size

@[simp] theorem initial_beforeInsert (capacity : Capacity) (size : Nat) :
    (capacity.beforeInsert size).1.initial = capacity.initial := by
  rw [beforeInsert]
  split
  · rfl
  · rfl

@[simp] theorem initial_afterRemove (capacity : Capacity) (size : Nat) :
    (capacity.afterRemove size).1.initial = capacity.initial := by
  rw [afterRemove]
  split
  · rfl
  · rfl

theorem fits_new {initial : Nat} (h : 0 < initial) : Fits ⟨initial, initial⟩ 0 where
  initial_pos := h
  size_le := Nat.zero_le initial
  doubled := ⟨0, (Nat.mul_one initial).symm⟩
  not_sparse hlt := (Nat.lt_irrefl initial hlt).elim

theorem Fits.initial_le (h : capacity.Fits size) : capacity.initial ≤ capacity.current := by
  obtain ⟨k, hk⟩ := h.doubled
  rw [hk]
  exact Nat.le_mul_of_pos_right _ (Nat.two_pow_pos k)

theorem Fits.current_pos (h : capacity.Fits size) : 0 < capacity.current :=
  Nat.lt_of_lt_of_le h.initial_pos h.initial_le

theorem Fits.current_le (h : capacity.Fits size) :
    capacity.current ≤ max capacity.initial (4 * size - 1) := by
  have hquarter := h.not_sparse
  omega

theorem Fits.current_of_empty (h : capacity.Fits 0) : capacity.current = capacity.initial := by
  refine Nat.le_antisymm (Nat.not_lt.1 fun hlarge => ?_) h.initial_le
  exact Nat.not_lt_zero _ (h.not_sparse hlarge)

theorem Fits.half (h : capacity.Fits size) (hlarge : capacity.initial < capacity.current) :
    ∃ k, capacity.current = 2 * (capacity.initial * 2 ^ k) := by
  obtain ⟨k, hk⟩ := h.doubled
  cases k with
  | zero =>
    rw [hk, Nat.pow_zero, Nat.mul_one] at hlarge
    exact (Nat.lt_irrefl _ hlarge).elim
  | succ k => exact ⟨k, by rw [hk, Nat.pow_succ, ← Nat.mul_assoc, Nat.mul_comm]⟩

theorem beforeInsert_of_lt (h : size < capacity.current) :
    capacity.beforeInsert size = (capacity, none) :=
  if_pos h

theorem beforeInsert_of_le (h : capacity.current ≤ size) :
    capacity.beforeInsert size =
      ({ capacity with current := min (capacity.current * growthFactor) limit },
        some ⟨capacity.current, min (capacity.current * growthFactor) limit⟩) :=
  if_neg (Nat.not_lt.2 h)

/-- Either room is left, or all of it is taken and the capacity doubles. -/
theorem Fits.beforeInsert_cases (h : capacity.Fits size)
    (hlimit : capacity.current ≤ size → capacity.current * growthFactor ≤ limit) :
    (size < capacity.current ∧ capacity.beforeInsert size = (capacity, none)) ∨
    (size = capacity.current ∧ capacity.beforeInsert size =
      ({ capacity with current := 2 * capacity.current },
        some ⟨capacity.current, 2 * capacity.current⟩)) := by
  rcases Nat.lt_or_ge size capacity.current with hroom | hfull
  · exact .inl ⟨hroom, beforeInsert_of_lt hroom⟩
  · have htwice : capacity.current * growthFactor = 2 * capacity.current := Nat.mul_comm _ _
    have hgrown := beforeInsert_of_le hfull
    rw [Nat.min_eq_left (hlimit hfull), htwice] at hgrown
    exact .inr ⟨Nat.le_antisymm h.size_le hfull, hgrown⟩

/-- Either more than a quarter stays taken, or just a quarter and the capacity is halved. -/
theorem Fits.afterRemove_cases (h : capacity.Fits (size + 1)) :
    ((capacity.initial < capacity.current → capacity.current / 4 < size) ∧
      capacity.afterRemove size = (capacity, none)) ∨
    (∃ k, capacity.current = 2 * (capacity.initial * 2 ^ k) ∧
      size = capacity.initial * 2 ^ k / 2 ∧
      capacity.afterRemove size =
        ({ capacity with current := capacity.initial * 2 ^ k },
          some ⟨capacity.current, capacity.initial * 2 ^ k⟩)) := by
  by_cases hkeep : capacity.current ≤ capacity.initial ∨ capacity.current / sparseDivisor < size
  · refine .inl ⟨?_, if_pos hkeep⟩
    intro hlarge
    exact hkeep.resolve_left (Nat.not_le.2 hlarge)
  · have hshrunk : capacity.afterRemove size = _ := if_neg hkeep
    rw [not_or, Nat.not_le, Nat.not_lt] at hkeep
    obtain ⟨hlarge, hsparse⟩ := hkeep
    have hquarter := h.not_sparse hlarge
    obtain ⟨k, hk⟩ := h.half hlarge
    have hhalf : capacity.current / growthFactor = capacity.initial * 2 ^ k := by
      rw [hk]
      exact Nat.mul_div_cancel_left _ (by decide)
    have hfloor : capacity.initial ≤ capacity.initial * 2 ^ k :=
      Nat.le_mul_of_pos_right _ (Nat.two_pow_pos k)
    rw [hhalf, Nat.max_eq_left hfloor] at hshrunk
    refine .inr ⟨k, hk, ?_, hshrunk⟩
    dsimp only [sparseDivisor] at hsparse
    omega

theorem Fits.beforeInsert (h : capacity.Fits size)
    (hlimit : capacity.current ≤ size → capacity.current * growthFactor ≤ limit) :
    (capacity.beforeInsert size).1.Fits (size + 1) := by
  rcases h.beforeInsert_cases hlimit with ⟨hroom, heq⟩ | ⟨hfull, heq⟩
  · rw [heq]
    exact ⟨h.initial_pos, hroom, h.doubled, fun hlarge => Nat.lt_succ_of_lt (h.not_sparse hlarge)⟩
  · have hpos := h.current_pos
    obtain ⟨k, hk⟩ := h.doubled
    have hdoubled : 2 * capacity.current = capacity.initial * 2 ^ (k + 1) := by
      rw [hk, Nat.pow_succ, Nat.mul_comm, Nat.mul_assoc]
    rw [heq]
    refine ⟨h.initial_pos, ?_, ⟨k + 1, hdoubled⟩, fun _ => ?_⟩
    · dsimp only
      omega
    · dsimp only
      omega

theorem Fits.afterRemove (h : capacity.Fits (size + 1)) :
    (capacity.afterRemove size).1.Fits size := by
  rcases h.afterRemove_cases with ⟨hdense, heq⟩ | ⟨k, -, hsize, heq⟩
  · rw [heq]
    exact ⟨h.initial_pos, Nat.le_of_succ_le h.size_le, h.doubled, hdense⟩
  · have hpos := h.initial_pos
    rw [heq]
    refine ⟨h.initial_pos, ?_, ⟨k, rfl⟩, fun hstill => ?_⟩
    · dsimp only
      omega
    · dsimp only at hstill ⊢
      omega

end Capacity

/-- The reply reports a growth that the limit has cut short of doubling. -/
def Reply.Saturated (reply : Reply α) : Prop :=
  ∃ change ∈ reply.change, change.direction = .grow ∧
    Capacity.limit < change.resize.old * Capacity.growthFactor

instance (reply : Reply α) : Decidable reply.Saturated :=
  inferInstanceAs (Decidable (∃ change ∈ reply.change, _))

namespace Container

variable {container : Container discipline}

theorem initial_serve (container : Container discipline) (request : Request α) :
    (container.serve request).1.capacity.initial = container.capacity.initial := by
  cases request with
  | insert item => exact Capacity.initial_beforeInsert container.capacity container.size
  | remove =>
    refine kept_serve_remove (fun later => later.capacity.initial = container.capacity.initial) rfl
      fun hremove => ?_
    rw [(of_remove_eq_ok hremove).2.1]
    exact Capacity.initial_afterRemove container.capacity _

theorem serve_insert_of_full (hfull : container.capacity.current ≤ container.size) (item : α) :
    (container.serve (.insert item)).2.change =
      some ⟨.grow, ⟨container.capacity.current,
        min (container.capacity.current * Capacity.growthFactor) Capacity.limit⟩,
        container.size⟩ := by
  rw [serve, insert, Capacity.beforeInsert_of_le hfull]
  rfl

theorem le_limit_of_full {item : α} (hlimit : ¬(container.serve (.insert item)).2.Saturated)
    (hfull : container.capacity.current ≤ container.size) :
    container.capacity.current * Capacity.growthFactor ≤ Capacity.limit := by
  rw [← Nat.not_lt]
  intro hsaturated
  exact hlimit ⟨_, serve_insert_of_full hfull item, rfl, hsaturated⟩

theorem fits_insert (hlawful : discipline.Lawful) (h : container.capacity.Fits container.size)
    (item : α) (hlimit : ¬(container.serve (.insert item)).2.Saturated) :
    (container.insert item).1.capacity.Fits (container.insert item).1.size := by
  rw [size_insert hlawful]
  exact h.beforeInsert (le_limit_of_full hlimit)

theorem fits_remove (hlawful : discipline.Lawful) (h : container.capacity.Fits container.size)
    {item : α} {after : Container discipline} {change : Option CapacityChange}
    (hremove : container.remove = .ok (item, after, change)) :
    after.capacity.Fits after.size := by
  rw [(of_remove_eq_ok hremove).2.1]
  rw [size_of_remove hlawful hremove] at h
  exact h.afterRemove

theorem fits_serve (hlawful : discipline.Lawful) (h : container.capacity.Fits container.size)
    (request : Request α) (hlimit : ¬(container.serve request).2.Saturated) :
    (container.serve request).1.capacity.Fits (container.serve request).1.size := by
  cases request with
  | insert item => exact fits_insert hlawful h item hlimit
  | remove =>
    exact kept_serve_remove (fun later => later.capacity.Fits later.size) h
      fun hremove => fits_remove hlawful h hremove

theorem initial_run (container : Container discipline) (requests : List (Request α)) :
    (container.run requests).1.capacity.initial = container.capacity.initial :=
  run_invariant (fun later => later.capacity.initial = container.capacity.initial)
    (fun _ => True) (fun later request h _ => (initial_serve later request).trans h) rfl
    requests fun _ _ => trivial

theorem fits_run (hlawful : discipline.Lawful) (h : container.capacity.Fits container.size)
    (requests : List (Request α))
    (hlimit : ∀ reply ∈ (container.run requests).2, ¬reply.Saturated) :
    (container.run requests).1.capacity.Fits (container.run requests).1.size :=
  run_invariant (fun later => later.capacity.Fits later.size) (fun reply => ¬reply.Saturated)
    (fun _ request hfits hreply => fits_serve hlawful hfits request hreply) h requests hlimit

/-- While no growth is cut short, the capacity is the initial one doubled, and suits the items. -/
theorem capacity_follows_size
    (hkind : discipline = .lifo α ∨ ∃ higher, discipline = .priority higher)
    {initial : Nat} (hinitial : 0 < initial) :
    ∃ start, ofInitial discipline initial = .ok start ∧ ∀ requests : List (Request α),
      (∀ reply ∈ (start.run requests).2, ¬reply.Saturated) →
      let container := (start.run requests).1
      container.size ≤ container.capacity.current ∧
      (∃ k, container.capacity.current = initial * 2 ^ k) ∧
      (initial < container.capacity.current →
        container.capacity.current / 4 < container.size) ∧
      (0 < container.size →
        container.capacity.current ≤ max initial (4 * container.size - 1)) ∧
      (container.size = 0 → container.capacity.current = initial) := by
  refine ⟨⟨#[], ⟨initial, initial⟩⟩, ofInitial_of_pos discipline hinitial, ?_⟩
  intro requests hlimit container
  have hlawful := Discipline.lawful_of_kind hkind
  have hkept : container.capacity.initial = initial := initial_run _ requests
  have hfits : container.capacity.Fits container.size :=
    fits_run hlawful (Capacity.fits_new hinitial) requests hlimit
  rw [← hkept]
  exact ⟨hfits.size_le, hfits.doubled, hfits.not_sparse, fun _ => hfits.current_le,
    fun hempty => (hempty ▸ hfits).current_of_empty⟩

theorem capacity_after_sweep :
    ∃ start : Stack Nat, ofInitial (.lifo Nat) 3 = .ok start ∧
      (start.run (List.replicate 13 (.insert 0))).1.capacity.current = 3 * 2 ^ 3 ∧
      (start.run (List.replicate 13 (.insert 0) ++ List.replicate 13 .remove)).1.capacity.current
        = 3 := by
  have hpos : 0 < 3 := by decide
  obtain ⟨start, hstart, hrun⟩ := capacity_follows_size (.inl (Eq.refl (Discipline.lifo Nat))) hpos
  refine ⟨start, hstart, ?_⟩
  cases hstart
  obtain ⟨-, -, -, -, hempty⟩ :=
    hrun (List.replicate 13 (.insert 0) ++ List.replicate 13 .remove) (by decide)
  exact ⟨by decide, hempty (by decide)⟩

end Container

end Keyspace
