import Mathlib.Data.List.Sort
import Keyspace.Proofs.Container.Bounds
import Keyspace.Proofs.Container.Conservation
import Keyspace.Proofs.Container.Heap
import Keyspace.Sample.Priorities

namespace Keyspace

variable {α : Type} {higher : α → α → Bool}

namespace Priority

/-- Neither item is higher than the other. -/
def Tied (higher : α → α → Bool) (a b : α) : Prop :=
  higher a b = false ∧ higher b a = false

/-- No item is higher than one that stands before it. -/
def Sorted (higher : α → α → Bool) (items : List α) : Prop :=
  items.Pairwise fun earlier later => higher later earlier = false

instance (items : List α) : Decidable (Sorted higher items) :=
  inferInstanceAs (Decidable (items.Pairwise _))

theorem Ranks.higher_eq_of_tied (hranks : Ranks higher) {a b : α} (h : Tied higher a b) (c : α) :
    higher a c = higher b c := by
  rw [Bool.eq_iff_iff, ← not_iff_not, Bool.not_eq_true, Bool.not_eq_true]
  exact ⟨fun hac => hranks.not_higher_trans h.2 hac, fun hbc => hranks.not_higher_trans h.1 hbc⟩

theorem Ranks.countP_head_eq_zero (hranks : Ranks higher) {item : α} {items : List α}
    (h : Sorted higher (item :: items)) : (item :: items).countP (higher · item) = 0 := by
  rw [List.countP_eq_zero]
  intro other hother
  rw [Bool.not_eq_true]
  rcases List.mem_cons.1 hother with rfl | hlater
  · exact hranks.not_higher_self other
  · exact List.rel_of_pairwise_cons h hlater

/-- Sorted lists that have equally many items above every bar are tied place by place. -/
theorem Ranks.forall₂_tied (hranks : Ranks higher) {first second : List α}
    (hlength : first.length = second.length)
    (hcount : ∀ bar, first.countP (higher · bar) = second.countP (higher · bar))
    (hfirst : Sorted higher first) (hsecond : Sorted higher second) :
    List.Forall₂ (Tied higher) first second := by
  induction first generalizing second with
  | nil =>
    obtain rfl := List.length_eq_zero_iff.1 hlength.symm
    exact .nil
  | cons a first ih =>
    cases second with
    | nil => cases hlength
    | cons b second =>
      -- no item is above the head of a sorted list, so neither head is above the other
      have htied : Tied higher a b := by
        have hb := (hcount b).trans (hranks.countP_head_eq_zero hsecond)
        have ha := (hcount a).symm.trans (hranks.countP_head_eq_zero hfirst)
        rw [List.countP_eq_zero] at ha hb
        exact ⟨Bool.eq_false_iff.2 (hb a List.mem_cons_self),
          Bool.eq_false_iff.2 (ha b List.mem_cons_self)⟩
      refine .cons htied (ih (Nat.succ.inj hlength) ?_ hfirst.of_cons hsecond.of_cons)
      intro bar
      have hbar := hcount bar
      rw [List.countP_cons, List.countP_cons, hranks.higher_eq_of_tied htied] at hbar
      exact Nat.add_right_cancel hbar

theorem ranks_lt : Ranks fun a b : Nat => decide (a < b) where
  irrefl a := by simp
  trans a b c := by simpa using Nat.lt_trans
  incomp_trans a b c := by
    simp only [decide_eq_true_eq]
    omega

end Priority

namespace Heap

theorem perm_and_sorted_drained (hranks : Priority.Ranks higher) (heap : Heap higher)
    (hempty : heap.stored = 0) (items : List α) :
    (heap.run (items.map .insert)).1.drained.Perm items ∧
      Priority.Sorted higher (heap.run (items.map .insert)).1.drained := by
  have hordered : Ordered higher heap.items := by
    rw [Container.stored_eq_zero_iff.1 hempty]
    exact ordered_empty higher
  exact ⟨Container.drained_perm (Discipline.lawful_priority higher) hempty items,
    pairwise_drained hranks _ (ordered_run hranks hordered (items.map .insert))⟩

end Heap

namespace Sample

/-- A heap with the smallest number on top sorts numbers as the library does. -/
theorem heapSort_eq_mergeSort {initial : Nat} (hpos : 0 < initial)
    (hlimit : initial ≤ Capacity.limit) (numbers : List Nat) :
    heapSort initial numbers = .ok (numbers.mergeSort, initial) := by
  let start : Heap fun a b : Nat => decide (a < b) := ⟨#[], ⟨initial, initial⟩⟩
  let full := (start.run (numbers.map .insert)).1
  have hlawful := Discipline.lawful_priority fun a b : Nat => decide (a < b)
  have hresult : heapSort initial numbers = .ok (full.drained, full.drain.1.capacity.current) := by
    rw [heapSort, Container.ofInitial_of_pos _ hpos]
    rfl
  have hsettled : full.Settled := (Container.settled_new _ hpos hlimit).run hlawful _
  have hcurrent : full.drain.1.capacity.current = initial :=
    (hsettled.current_drain hlawful).trans (Container.initial_run start _)
  obtain ⟨hperm, hsorted⟩ := Heap.perm_and_sorted_drained Priority.ranks_lt start rfl numbers
  have hascending : full.drained.Pairwise (· ≤ ·) :=
    hsorted.imp fun h => Nat.not_lt.1 (of_decide_eq_false h)
  have hmerged : numbers.mergeSort.Pairwise (· ≤ ·) := List.pairwise_mergeSort' (· ≤ ·) numbers
  have hsame : full.drained.Perm numbers.mergeSort :=
    hperm.trans (List.mergeSort_perm numbers _).symm
  have hsort : full.drained = numbers.mergeSort :=
    hsame.eq_of_pairwise (fun _ _ _ _ => Nat.le_antisymm) hascending hmerged
  rw [hresult, hcurrent, hsort]

end Sample

namespace Heap

/-- In whatever order a heap takes items in, it gives them out the same but for ties. -/
theorem drained_independent_of_order (higher : α → α → Bool) :
    (Priority.Ranks higher → ∀ initial other, 0 < initial → 0 < other →
      ∀ items reordered : List α, items.Perm reordered →
      ∃ first second : Heap higher, Container.ofInitial (.priority higher) initial = .ok first ∧
        Container.ofInitial (.priority higher) other = .ok second ∧
        let sorted := (first.run (items.map .insert)).1.drained
        let resorted := (second.run (reordered.map .insert)).1.drained
        List.Forall₂ (Priority.Tied higher) sorted resorted ∧
        ((∀ a b, Priority.Tied higher a b → a = b) →
          sorted = resorted ∧
          ∀ list, list = sorted ↔ list.Perm items ∧ Priority.Sorted higher list)) ∧
    ∀ (count : Nat) (seed : UInt64) (initial : Nat), 0 < initial → initial ≤ Capacity.limit →
      Sample.heapSort initial (Sample.scatteredPriorities count seed) =
        .ok ((Sample.scatteredPriorities count seed).mergeSort, initial) := by
  refine ⟨?_, fun count seed initial hpos hlimit => Sample.heapSort_eq_mergeSort hpos hlimit _⟩
  intro hranks initial other hinitial hother items reordered hperm
  let first : Heap higher := ⟨#[], ⟨initial, initial⟩⟩
  let second : Heap higher := ⟨#[], ⟨other, other⟩⟩
  refine ⟨first, second, Container.ofInitial_of_pos _ hinitial,
    Container.ofInitial_of_pos _ hother, ?_⟩
  intro sorted resorted
  obtain ⟨hpermFirst, hfirst⟩ := perm_and_sorted_drained hranks first rfl items
  obtain ⟨hpermSecond, hsecond⟩ := perm_and_sorted_drained hranks second rfl reordered
  have hboth : sorted.Perm resorted := hpermFirst.trans (hperm.trans hpermSecond.symm)
  constructor
  · exact hranks.forall₂_tied hboth.length_eq (fun bar => hboth.countP_eq _) hfirst hsecond
  · intro hstrict
    have hunique {list list' : List α} (hlist : Priority.Sorted higher list)
        (hlist' : Priority.Sorted higher list') (hsame : list.Perm list') : list = list' :=
      List.Perm.eq_of_pairwise (fun a b _ _ hba hab => hstrict a b ⟨hab, hba⟩) hlist hlist' hsame
    refine ⟨hunique hfirst hsecond hboth, fun list => ⟨?_, ?_⟩⟩
    · rintro rfl
      exact ⟨hpermFirst, hfirst⟩
    · intro hlist
      exact hunique hlist.2 hfirst (hlist.1.trans hpermFirst.symm)

/-- Two tied items leave in the order in which they came, equal numbers in one order only. -/
theorem drained_after_reordering :
    (∃ first second : Heap fun a b : Int × Int => Priority.smallestFirst a.1 b.1,
      Container.ofInitial (.priority _) 1 = .ok first ∧
      Container.ofInitial (.priority _) 8 = .ok second ∧
      let sorted := (first.run ([(2, 0), (1, 0), (1, 1)].map .insert)).1.drained
      let resorted := (second.run ([(2, 0), (1, 1), (1, 0)].map .insert)).1.drained
      sorted ≠ resorted ∧
        List.Forall₂ (Priority.Tied fun a b => Priority.smallestFirst a.1 b.1) sorted resorted) ∧
    (∃ first second : Heap fun a b : Nat => decide (a < b),
      Container.ofInitial (.priority _) 1 = .ok first ∧
      Container.ofInitial (.priority _) 4 = .ok second ∧
      (first.run ([3, 1, 2, 1].map .insert)).1.drained = [1, 1, 2, 3] ∧
      (second.run ([1, 2, 1, 3].map .insert)).1.drained = [1, 1, 2, 3]) ∧
    Sample.heapSort 2 (Sample.scatteredPriorities 20 7) =
      .ok ((Sample.scatteredPriorities 20 7).mergeSort, 2) := by
  refine ⟨?_, ?_, (drained_independent_of_order fun a b : Nat => decide (a < b)).2 20 7 2
    (by decide) (by decide)⟩
  · obtain ⟨first, second, hfirst, hsecond, htied, -⟩ :=
      (drained_independent_of_order fun a b : Int × Int => Priority.smallestFirst a.1 b.1).1
        (Priority.ranks_smallestFirst Prod.fst) 1 8 (by decide) (by decide)
        [(2, 0), (1, 0), (1, 1)] [(2, 0), (1, 1), (1, 0)] (by decide)
    refine ⟨first, second, hfirst, hsecond, ?_, htied⟩
    cases hfirst
    cases hsecond
    decide +kernel
  · obtain ⟨first, second, hfirst, hsecond, -, htotal⟩ :=
      (drained_independent_of_order fun a b : Nat => decide (a < b)).1 Priority.ranks_lt 1 4
        (by decide) (by decide) [3, 1, 2, 1] [1, 2, 1, 3] (by decide)
    have hstrict (a b : Nat) (h : Priority.Tied (fun a b => decide (a < b)) a b) : a = b := by
      have hle : a ≤ b := Nat.not_lt.1 (of_decide_eq_false h.2)
      have hge : b ≤ a := Nat.not_lt.1 (of_decide_eq_false h.1)
      exact Nat.le_antisymm hle hge
    obtain ⟨hsame, hsorted⟩ := htotal hstrict
    have hlist := (hsorted [1, 1, 2, 3]).2 ⟨by decide, by decide⟩
    exact ⟨first, second, hfirst, hsecond, hlist.symm, hsame.symm.trans hlist.symm⟩

end Heap

end Keyspace
