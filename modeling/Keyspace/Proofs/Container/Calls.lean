import Keyspace.Proofs.Container.Bounds

namespace Keyspace.Capacity

variable {capacity : Capacity} {size : Nat}

theorem afterRemove_of_keep
    (h : capacity.current ≤ capacity.initial ∨ capacity.current / 4 < size) :
    capacity.afterRemove size = (capacity, none) :=
  if_pos h

theorem afterRemove_of_sparse (hlarge : capacity.initial < capacity.current)
    (hsparse : size ≤ capacity.current / 4) :
    capacity.afterRemove size =
      ({ capacity with current := max (capacity.current / 2) capacity.initial },
        some ⟨capacity.current, max (capacity.current / 2) capacity.initial⟩) :=
  if_neg (not_or.2 ⟨Nat.not_le.2 hlarge, Nat.not_lt.2 hsparse⟩)

theorem initial_callAll (capacity : Capacity) (calls : List Call) :
    (capacity.callAll calls).1.initial = capacity.initial := by
  induction calls generalizing capacity with
  | nil => rfl
  | cons call calls ih =>
    have hcall : (capacity.call call).1.initial = capacity.initial := by
      cases call with
      | insert size => exact initial_beforeInsert capacity size
      | remove size => exact initial_afterRemove capacity size
    exact (ih _).trans hcall

theorem Bounded.call (h : capacity.Bounded) (call : Call) : (capacity.call call).1.Bounded := by
  cases call with
  | insert size => exact h.beforeInsert size
  | remove size => exact h.afterRemove size

theorem Bounded.callAll (h : capacity.Bounded) (calls : List Call) :
    (capacity.callAll calls).1.Bounded := by
  induction calls generalizing capacity with
  | nil => exact h
  | cons call calls ih => exact ih (h.call call)

/-- A larger capacity is reported exactly when no room is left. -/
theorem Bounded.beforeInsert_report (h : capacity.Bounded) (size : Nat) :
    ((capacity.beforeInsert size).2.isSome ↔ capacity.current ≤ size) ∧
    (∀ resize ∈ (capacity.beforeInsert size).2,
      resize = ⟨capacity.current, (capacity.beforeInsert size).1.current⟩ ∧
      (capacity.current < (capacity.beforeInsert size).1.current ∨ capacity.current = limit)) ∧
    ((capacity.beforeInsert size).2 = none → (capacity.beforeInsert size).1 = capacity) ∧
    (size ≤ capacity.current →
      size < (capacity.beforeInsert size).1.current ∨ capacity.current = limit) := by
  have hpos := Nat.lt_of_lt_of_le h.initial_pos h.initial_le
  have hhigh := h.current_le
  rcases Nat.lt_or_ge size capacity.current with hroom | hfull
  · rw [beforeInsert_of_lt hroom]
    simp [hroom]
  · rw [beforeInsert_of_le hfull]
    have hgrows : capacity.current < min (capacity.current * growthFactor) limit ∨
        capacity.current = limit := by
      dsimp only [growthFactor]
      omega
    refine ⟨by simp [hfull], ?_, by simp, ?_⟩
    · rintro resize hresize
      cases hresize
      exact ⟨rfl, hgrows⟩
    · intro hfits
      rwa [Nat.le_antisymm hfits hfull]

/-- A smaller capacity is reported exactly when it is above the initial one and sparse. -/
theorem Bounded.afterRemove_report (h : capacity.Bounded) (size : Nat) :
    ((capacity.afterRemove size).2.isSome ↔
      capacity.initial < capacity.current ∧ size ≤ capacity.current / 4) ∧
    (∀ resize ∈ (capacity.afterRemove size).2,
      resize = ⟨capacity.current, (capacity.afterRemove size).1.current⟩ ∧
      (capacity.afterRemove size).1.current < capacity.current ∧
      2 * size ≤ (capacity.afterRemove size).1.current) ∧
    ((capacity.afterRemove size).2 = none → (capacity.afterRemove size).1 = capacity) := by
  have hpos := h.initial_pos
  by_cases hshrink : capacity.initial < capacity.current ∧ size ≤ capacity.current / 4
  · obtain ⟨hlarge, hsparse⟩ := hshrink
    rw [afterRemove_of_sparse hlarge hsparse]
    refine ⟨by simp [hlarge, hsparse], ?_, by simp⟩
    rintro resize hresize
    cases hresize
    refine ⟨rfl, ?_, ?_⟩
    · dsimp only
      omega
    · dsimp only
      omega
  · have hkeep : capacity.current ≤ capacity.initial ∨ capacity.current / 4 < size := by omega
    rw [afterRemove_of_keep hkeep]
    simp [hshrink]

theorem callAll_of_initial (initial count : Nat) :
    callAll ⟨initial, initial⟩ (List.replicate count (.remove 0)) =
      (⟨initial, initial⟩, List.replicate count none) := by
  induction count with
  | zero => rfl
  | succ count ih =>
    have hkeep : afterRemove ⟨initial, initial⟩ 0 = (⟨initial, initial⟩, none) :=
      afterRemove_of_keep (.inl (Nat.le_refl initial))
    rw [List.replicate_succ, List.replicate_succ, callAll, call, hkeep]
    dsimp only
    rw [ih]

/-- Removals that leave nothing halve the capacity until it is the initial one. -/
theorem exists_shrinks {initial current steps : Nat} (hfloor : initial ≤ current)
    (hsteps : current / 2 ^ steps ≤ initial) :
    ∃ resizes : List Resize, resizes.length ≤ steps ∧ ∀ count,
      callAll ⟨initial, current⟩ (List.replicate (resizes.length + count) (.remove 0)) =
        (⟨initial, initial⟩, resizes.map some ++ List.replicate count none) := by
  induction steps generalizing current with
  | zero =>
    rw [Nat.pow_zero, Nat.div_one] at hsteps
    obtain rfl := Nat.le_antisymm hsteps hfloor
    refine ⟨[], Nat.le_refl 0, fun count => ?_⟩
    rw [List.length_nil, Nat.zero_add]
    exact callAll_of_initial _ count
  | succ steps ih =>
    rcases Nat.eq_or_lt_of_le hfloor with rfl | hlarge
    · refine ⟨[], Nat.zero_le _, fun count => ?_⟩
      rw [List.length_nil, Nat.zero_add]
      exact callAll_of_initial initial count
    · -- the first removal halves the capacity, and one step less is left for the rest
      have hhalf : max (current / 2) initial / 2 ^ steps ≤ initial := by
        rw [Nat.pow_succ', ← Nat.div_div_eq_div_mul] at hsteps
        rcases Nat.le_total (current / 2) initial with hle | hge
        · rw [Nat.max_eq_right hle]
          exact Nat.div_le_self _ _
        · rwa [Nat.max_eq_left hge]
      obtain ⟨resizes, hlength, hrest⟩ := ih (Nat.le_max_right _ _) hhalf
      refine ⟨⟨current, max (current / 2) initial⟩ :: resizes, Nat.succ_le_succ hlength, ?_⟩
      intro count
      rw [List.length_cons, Nat.add_right_comm, List.replicate_succ, callAll, call,
        afterRemove_of_sparse hlarge (Nat.zero_le _)]
      dsimp only
      rw [hrest]
      rfl

/-- Whatever a caller asks of a capacity, it stays between the initial one and the limit. -/
theorem calls_keep_bounds {initial : Nat} (hpos : 0 < initial) (hlimit : initial ≤ limit) :
    ∃ start, ofInitial initial = .ok start ∧ ∀ calls : List Call,
      let capacity := (start.callAll calls).1
      (initial ≤ capacity.current ∧ capacity.current ≤ 2 ^ 64 - 1) ∧
      (∀ size,
        let after := (capacity.call (.insert size)).1
        let report := (capacity.call (.insert size)).2
        (report.isSome ↔ capacity.current ≤ size) ∧
        (∀ resize ∈ report, resize = ⟨capacity.current, after.current⟩ ∧
          (capacity.current < after.current ∨ capacity.current = 2 ^ 64 - 1)) ∧
        (report = none → after = capacity) ∧
        (size ≤ capacity.current → size < after.current ∨ capacity.current = 2 ^ 64 - 1)) ∧
      (∀ size,
        let after := (capacity.call (.remove size)).1
        let report := (capacity.call (.remove size)).2
        (report.isSome ↔ initial < capacity.current ∧ size ≤ capacity.current / 4) ∧
        (∀ resize ∈ report, resize = ⟨capacity.current, after.current⟩ ∧
          after.current < capacity.current ∧ 2 * size ≤ after.current) ∧
        (report = none → after = capacity)) ∧
      ∃ resizes : List Resize, resizes.length ≤ 63 ∧ ∀ count,
        capacity.callAll (List.replicate (resizes.length + count) (.remove 0)) =
          (⟨initial, initial⟩, resizes.map some ++ List.replicate count none) := by
  refine ⟨⟨initial, initial⟩, if_neg (Nat.ne_of_gt hpos), ?_⟩
  intro calls capacity
  have hbounded : capacity.Bounded := (bounded_new hpos hlimit).callAll calls
  have hkept : capacity.initial = initial := initial_callAll _ calls
  have hhigh : capacity.current ≤ 2 ^ 64 - 1 := hbounded.current_le
  have hlow := hbounded.initial_le
  have hshrinks : capacity.current / 2 ^ 63 ≤ capacity.initial := by omega
  rw [← hkept]
  exact ⟨⟨hlow, hhigh⟩, hbounded.beforeInsert_report, hbounded.afterRemove_report,
    exists_shrinks hlow hshrinks⟩

theorem bounds_kept_past_limit :
    ∃ start, ofInitial 3 = .ok start ∧
      let capacity := (start.callAll (List.replicate 64 (.insert (2 ^ 64 - 1)))).1
      capacity = ⟨3, 2 ^ 64 - 1⟩ ∧
      (capacity.call (.remove 7)).2 = some ⟨2 ^ 64 - 1, 2 ^ 63 - 1⟩ ∧
      ∃ resizes : List Resize, resizes.length ≤ 63 ∧ ∀ count,
        capacity.callAll (List.replicate (resizes.length + count) (.remove 0)) =
          (⟨3, 3⟩, resizes.map some ++ List.replicate count none) := by
  obtain ⟨start, hstart, hcalls⟩ := calls_keep_bounds (Nat.succ_pos 2) (by decide : 3 ≤ limit)
  obtain ⟨-, -, -, hback⟩ := hcalls (List.replicate 64 (.insert (2 ^ 64 - 1)))
  refine ⟨start, hstart, ?_, ?_, hback⟩
  · cases hstart
    decide +kernel
  · cases hstart
    decide +kernel

end Keyspace.Capacity
