import Keyspace.Proofs.Container.Conservation
import Keyspace.Proofs.Container.Trace

namespace Keyspace

variable {α : Type} {discipline : Discipline α}

/-- What has been paid in advance: two for each item above half of the capacity, and one for each
that is missing to half of a capacity that can shrink. -/
def Capacity.credit (capacity : Capacity) (size : Nat) : Nat :=
  (2 * size - capacity.current) +
    if capacity.initial < capacity.current then capacity.current / 2 - size else 0

theorem Capacity.credit_new (initial : Nat) : credit ⟨initial, initial⟩ 0 = 0 := by
  rw [credit, if_neg (Nat.lt_irrefl initial)]
  exact Nat.zero_sub initial

def Reply.cost (reply : Reply α) : Nat :=
  reply.change.elim 0 CapacityChange.size

/-- The numbers of items that are present at the changes, taken together. -/
def cost : List (Reply α) → Nat
  | [] => 0
  | reply :: replies => reply.cost + cost replies

namespace Container

variable {container : Container discipline}

/-- The credit pays for a change, and each request adds to it no more than it is charged. -/
theorem Adjusted.cost_le {before after : Container discipline} {change : Option CapacityChange}
    {inserts removals : Nat} (h : Adjusted before after change)
    (hfits : before.capacity.Fits before.size)
    (hinitial : after.capacity.initial = before.capacity.initial)
    (hbalance : after.size + removals = before.size + inserts) :
    change.elim 0 CapacityChange.size + after.capacity.credit after.size ≤
      before.capacity.credit before.size + 2 * inserts + removals := by
  have hfloor := hfits.initial_le
  have hpos := hfits.initial_pos
  cases h with
  | kept hcapacity =>
    rw [hcapacity, Option.elim, Capacity.credit, Capacity.credit]
    split
    · omega
    · omega
  | grown hcurrent hfull hsize =>
    -- a full capacity has a credit of all its items, and two are left of it in the doubled one
    have hlarge : before.capacity.initial < after.capacity.current := by omega
    rw [Option.elim, Capacity.credit, hinitial, if_pos hlarge, Capacity.credit]
    dsimp only
    omega
  | shrunk hcurrent hhalf hsparse hsize =>
    -- the credit of the removals is spent, and a halved capacity that is half full has none
    have hlarge : before.capacity.initial < before.capacity.current := by omega
    have hspent : after.capacity.credit after.size = 0 := by
      rw [Capacity.credit]
      split
      · omega
      · omega
    rw [Option.elim, hspent, Capacity.credit, if_pos hlarge]
    dsimp only
    omega

theorem cost_run (hlawful : discipline.Lawful) (h : container.capacity.Fits container.size)
    (requests : List (Request α))
    (hlimit : ∀ reply ∈ (container.run requests).2, ¬reply.Saturated) :
    cost (container.run requests).2 +
        (container.run requests).1.capacity.credit (container.run requests).1.size ≤
      container.capacity.credit container.size +
        2 * (inserted requests).card + (returned (container.run requests).2).card := by
  refine fitting_run_induction hlawful h requests hlimit ?nil ?cons
  case nil =>
    intro container
    exact Nat.le_of_eq (Nat.zero_add _)
  case cons =>
    intro container request requests hfits hadjusted hrest
    let served := container.serve request
    let final := served.1.run requests
    have hbalance : served.1.size + (returned [served.2]).card =
        container.size + (inserted [request]).card :=
      size_run hlawful container [request]
    have hfirst : served.2.cost + served.1.capacity.credit served.1.size ≤
        container.capacity.credit container.size + 2 * (inserted [request]).card +
          (returned [served.2]).card :=
      hadjusted.cost_le hfits (initial_serve container request) hbalance
    have hlater : cost final.2 + final.1.capacity.credit final.1.size ≤
        served.1.capacity.credit served.1.size + 2 * (inserted requests).card +
          (returned final.2).card := hrest
    change cost (served.2 :: final.2) + final.1.capacity.credit final.1.size ≤
      container.capacity.credit container.size + 2 * (inserted (request :: requests)).card +
        (returned (served.2 :: final.2)).card
    rw [cost, card_inserted_cons, card_returned_cons]
    omega

/-- The items present at all changes are at most two per insertion and one per removal. -/
theorem cost_le_twice_inserted
    (hkind : discipline = .lifo α ∨ ∃ higher, discipline = .priority higher)
    {initial : Nat} (hinitial : 0 < initial) :
    ∃ start, ofInitial discipline initial = .ok start ∧ ∀ requests : List (Request α),
      (∀ reply ∈ (start.run requests).2, ¬reply.Saturated) →
      cost (start.run requests).2 ≤
        2 * (inserted requests).card + (returned (start.run requests).2).card := by
  let start : Container discipline := ⟨#[], ⟨initial, initial⟩⟩
  refine ⟨start, ofInitial_of_pos discipline hinitial, ?_⟩
  intro requests hlimit
  have hfits : start.capacity.Fits start.size := Capacity.fits_new hinitial
  have hcredit : start.capacity.credit start.size = 0 := Capacity.credit_new initial
  have hrun := cost_run (Discipline.lawful_of_kind hkind) hfits requests hlimit
  rw [hcredit, Nat.zero_add] at hrun
  exact Nat.le_of_add_right_le hrun

theorem cost_of_refilled_stack :
    ∃ start : Stack Nat, ofInitial (.lifo Nat) 1 = .ok start ∧
      let filled : List (Request Nat) := [.insert 3, .insert 1, .insert 2]
      let requests := filled ++ [.remove, .remove, .remove, .remove] ++ filled
      cost (start.run requests).2 = 7 ∧ (inserted requests).card = 6 ∧
        (returned (start.run requests).2).card = 3 ∧
        cost (start.run requests).2 ≤
          2 * (inserted requests).card + (returned (start.run requests).2).card := by
  obtain ⟨start, hstart, hrun⟩ :=
    cost_le_twice_inserted (.inl (Eq.refl (Discipline.lifo Nat))) Nat.one_pos
  refine ⟨start, hstart, ?_⟩
  cases hstart
  intro filled requests
  have hcost := hrun requests (by decide)
  exact ⟨by decide, by decide, by decide, hcost⟩

end Container

end Keyspace
