import Mathlib.Algebra.Order.Floor.Div
import Keyspace.Proofs.Container.Conservation
import Keyspace.Proofs.Container.Trace

namespace Keyspace

variable {α : Type} {discipline : Discipline α}

/-- How many insertions or removals it takes at least from one change of capacity to the next. -/
def FarApart (former latter : Direction) (current inserts removals : Nat) : Prop :=
  match former, latter with
  | .grow, .grow => current ≤ 2 * inserts
  | .grow, .shrink => current ⌈/⌉ 4 + 1 ≤ removals
  | .shrink, .grow => current ⌈/⌉ 2 + 1 ≤ inserts
  | .shrink, .shrink => current ⌈/⌉ 4 ≤ removals

theorem FarApart.turn {former latter : Direction} {current inserts removals : Nat}
    (h : FarApart former latter current inserts removals) (hcurrent : 0 < current)
    (hturn : former ≠ latter) : 1 < inserts ∨ 1 < removals := by
  cases former with
  | grow =>
    cases latter with
    | grow => exact absurd rfl hturn
    | shrink =>
      dsimp only [FarApart, Nat.ceilDiv_eq_add_pred_div] at h
      omega
  | shrink =>
    cases latter with
    | shrink => exact absurd rfl hturn
    | grow =>
      dsimp only [FarApart, Nat.ceilDiv_eq_add_pred_div] at h
      omega

theorem FarApart.ne_nil_of_turn {former latter : Direction} {current : Nat}
    {between : List (Request α)} {last : Request α} {replies : List (Reply α)}
    (h : FarApart former latter current (inserted (between ++ [last])).card
      (returned replies).card)
    (hreplies : replies.length = between.length + 1) (hcurrent : 0 < current)
    (hturn : former ≠ latter) : between ≠ [] := by
  intro hnone
  have hempty : between.length = 0 := List.length_eq_zero_iff.2 hnone
  have hinserts := card_inserted_le (between ++ [last])
  have hremovals := card_returned_le replies
  have hmore := h.turn hcurrent hturn
  rw [List.length_append, List.length_singleton] at hinserts
  omega

namespace CapacityChange

variable {initial inserts removals : Nat} {former latter : CapacityChange}

theorem Due.new_pos (h : former.Due initial) (hinitial : 0 < initial) : 0 < former.resize.new := by
  cases h with
  | grow h => exact Nat.mul_pos Nat.two_pos (Nat.lt_of_lt_of_le hinitial h)
  | shrink h => exact Nat.lt_of_lt_of_le hinitial h

/-- Changes that come in time are as far apart as their numbers of items. -/
theorem Due.farApart (hformer : former.Due initial) (hlatter : latter.Due initial)
    (hlink : latter.resize.old = former.resize.new)
    (hbalance : latter.sizeAfter + removals = former.sizeAfter + inserts) :
    FarApart former.direction latter.direction former.resize.new inserts removals := by
  cases hformer with
  | grow =>
    cases hlatter with
    | grow =>
      dsimp only [FarApart, sizeAfter] at *
      omega
    | shrink =>
      dsimp only [FarApart, Nat.ceilDiv_eq_add_pred_div, sizeAfter] at *
      omega
  | shrink =>
    cases hlatter with
    | grow =>
      dsimp only [FarApart, Nat.ceilDiv_eq_add_pred_div, sizeAfter] at *
      omega
    | shrink =>
      dsimp only [FarApart, Nat.ceilDiv_eq_add_pred_div, sizeAfter] at *
      omega

end CapacityChange

namespace Container

variable {container : Container discipline}

theorem current_run_of_changes_eq_nil (hlawful : discipline.Lawful)
    (h : container.capacity.Fits container.size) (requests : List (Request α))
    (hlimit : ∀ reply ∈ (container.run requests).2, ¬reply.Saturated)
    (hquiet : changes (container.run requests).2 = []) :
    container.capacity.current = (container.run requests).1.capacity.current := by
  have hlead := lead_run hlawful h requests hlimit
  rwa [hquiet] at hlead

/-- Requests without a change lead to the next one no sooner than the numbers of items allow. -/
theorem farApart_of_quiet (hlawful : discipline.Lawful)
    (h : container.capacity.Fits container.size) {first last : Request α}
    {between : List (Request α)} {former latter : CapacityChange}
    (hlimit : ∀ reply ∈ (container.run (first :: (between ++ [last]))).2, ¬reply.Saturated)
    (hformer : (container.serve first).2.change = some former)
    (hquiet : changes ((container.serve first).1.run between).2 = [])
    (hlatter : (((container.serve first).1.run between).1.serve last).2.change = some latter) :
    former.Due container.capacity.initial ∧
      FarApart former.direction latter.direction former.resize.new
        (inserted (between ++ [last])).card
        (returned ((container.serve first).1.run (between ++ [last])).2).card := by
  let resized := container.serve first
  let quiet := resized.1.run between
  let closed := quiet.1.serve last
  have hrest : resized.1.run (between ++ [last]) = (closed.1, quiet.2 ++ [closed.2]) :=
    run_append resized.1 between [last]
  rw [run_cons, hrest, List.forall_mem_cons, List.forall_mem_append,
    List.forall_mem_singleton] at hlimit
  obtain ⟨hfirst, hbetween, hlast⟩ := hlimit
  have hresized : resized.1.capacity.Fits resized.1.size := fits_serve hlawful h first hfirst
  have hready : quiet.1.capacity.Fits quiet.1.size := fits_run hlawful hresized between hbetween
  have hformerStep := adjusted_serve hlawful h first hfirst
  rw [hformer] at hformerStep
  have hlatterStep := adjusted_serve hlawful hready last hlast
  rw [hlatter] at hlatterStep
  have hinitial : quiet.1.capacity.initial = container.capacity.initial :=
    (initial_run resized.1 between).trans (initial_serve container first)
  have hlatterDue := hlatterStep.due hready
  rw [hinitial] at hlatterDue
  -- nothing is reported in between, so the latter change starts where the former one has led
  have hlink : latter.resize.old = former.resize.new :=
    calc latter.resize.old = quiet.1.capacity.current := hlatterStep.current_eq.1
      _ = resized.1.capacity.current :=
        (current_run_of_changes_eq_nil hlawful hresized between hbetween hquiet).symm
      _ = former.resize.new := hformerStep.current_eq.2.symm
  have hbalance := size_run hlawful resized.1 (between ++ [last])
  have hclosed : (resized.1.run (between ++ [last])).1.size = latter.sizeAfter := by
    rw [hrest]
    exact hlatterStep.size_eq
  rw [hclosed, hformerStep.size_eq] at hbalance
  exact ⟨hformerStep.due h, (hformerStep.due h).farApart hlatterDue hlink hbalance⟩

/-- The requests from one change of capacity to the next one are as many as it takes at least. -/
theorem changes_keep_distance
    (hkind : discipline = .lifo α ∨ ∃ higher, discipline = .priority higher)
    {initial : Nat} (hinitial : 0 < initial) :
    ∃ start, ofInitial discipline initial = .ok start ∧
      ∀ (earlier between : List (Request α)) (first last : Request α),
      (∀ reply ∈ (start.run (earlier ++ first :: (between ++ [last]))).2, ¬reply.Saturated) →
      let resized := (start.run earlier).1.serve first
      let quiet := resized.1.run between
      let closed := quiet.1.serve last
      ∀ former latter, resized.2.change = some former → changes quiet.2 = [] →
        closed.2.change = some latter →
        FarApart former.direction latter.direction former.resize.new
          (inserted (between ++ [last])).card (returned (quiet.2 ++ [closed.2])).card ∧
        (former.direction ≠ latter.direction → between ≠ []) := by
  let start : Container discipline := ⟨#[], ⟨initial, initial⟩⟩
  refine ⟨start, ofInitial_of_pos discipline hinitial, ?_⟩
  intro earlier between first last hlimit resized quiet closed former latter hformer hquiet hlatter
  have hlawful := Discipline.lawful_of_kind hkind
  rw [run_append, List.forall_mem_append] at hlimit
  obtain ⟨hearlier, hlater⟩ := hlimit
  have hopened := fits_run hlawful (Capacity.fits_new hinitial) earlier hearlier
  obtain ⟨hdue, hfar⟩ := farApart_of_quiet hlawful hopened hlater hformer hquiet hlatter
  have hrest : (resized.1.run (between ++ [last])).2 = quiet.2 ++ [closed.2] := by
    rw [run_append]
    rfl
  have hlength : (quiet.2 ++ [closed.2]).length = between.length + 1 := by
    rw [← hrest, length_run, List.length_append, List.length_singleton]
  rw [hrest] at hfar
  have hkept : (start.run earlier).1.capacity.initial = initial := initial_run start earlier
  rw [hkept] at hdue
  exact ⟨hfar, hfar.ne_nil_of_turn hlength (hdue.new_pos hinitial)⟩

theorem stack_turns_after_three_removals :
    ∃ start : Stack Nat, ofInitial (.lifo Nat) 3 = .ok start ∧
      let earlier : List (Request Nat) := [.insert 0, .insert 0, .insert 0]
      let between : List (Request Nat) := [.remove, .insert 0, .insert 0, .remove, .remove, .remove]
      let resized := (start.run earlier).1.serve (.insert 0)
      let quiet := resized.1.run between
      let closed := quiet.1.serve .remove
      resized.2.change = some ⟨.grow, ⟨3, 6⟩, 3⟩ ∧ changes quiet.2 = [] ∧
        closed.2.change = some ⟨.shrink, ⟨6, 3⟩, 1⟩ ∧
        FarApart .grow .shrink 6 (inserted (between ++ [.remove])).card
          (returned (quiet.2 ++ [closed.2])).card := by
  obtain ⟨start, hstart, hrun⟩ :=
    changes_keep_distance (.inl (Eq.refl (Discipline.lifo Nat))) (Nat.succ_pos 2)
  refine ⟨start, hstart, ?_⟩
  cases hstart
  intro earlier between
  obtain ⟨hfar, -⟩ := hrun earlier between (.insert 0) .remove (by decide) ⟨.grow, ⟨3, 6⟩, 3⟩
    ⟨.shrink, ⟨6, 3⟩, 1⟩ (by decide) (by decide) (by decide)
  exact ⟨by decide, by decide, by decide, hfar⟩

end Container

end Keyspace
