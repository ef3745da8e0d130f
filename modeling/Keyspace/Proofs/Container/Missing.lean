import Mathlib.Data.Multiset.MapFold
import Keyspace.Proofs.Container.Heap

namespace Keyspace

variable {α β : Type} {higher : α → α → Bool} {other : β → β → Bool} {label : α → β}

def Request.map (label : α → β) : Request α → Request β
  | .insert item => .insert (label item)
  | .remove => .remove

namespace Sift

variable {n : Nat}

theorem map_swap (label : α → β) (items : Vector α n) (i j : Fin n) :
    (items.map label).swap i j i.isLt j.isLt = (items.swap i j i.isLt j.isLt).map label := by
  apply Vector.ext
  intro k hk
  simp only [Vector.getElem_map, Vector.getElem_swap]
  split
  · rfl
  · split
    · rfl
    · rfl

theorem firstChild_map (h : ∀ a b, other (label a) (label b) = higher a b) (items : Vector α n)
    (i : Fin n) : firstChild other (items.map label) i = firstChild higher items i := by
  simp only [firstChild, Vector.getElem_map, h]

theorem up_map (h : ∀ a b, other (label a) (label b) = higher a b) (items : Vector α n)
    (i : Fin n) : up other (items.map label) i = (up higher items i).map label := by
  induction items, i using up.induct higher with
  | case1 items i hroot => rw [up, up, dif_pos hroot, dif_pos hroot]
  | case2 items i hroot parentLt parent hhigher ih =>
    rw [up, up, dif_neg hroot, dif_neg hroot]
    simp only [Fin.getElem_fin, Vector.getElem_map, h] at hhigher ⊢
    rw [if_pos hhigher, if_pos hhigher, ← ih]
    exact congrArg (up other · parent) (map_swap label items i parent)
  | case3 items i hroot parentLt parent hlower =>
    rw [up, up, dif_neg hroot, dif_neg hroot]
    simp only [Fin.getElem_fin, Vector.getElem_map, h] at hlower ⊢
    rw [if_neg hlower, if_neg hlower]

theorem down_map (h : ∀ a b, other (label a) (label b) = higher a b) (items : Vector α n)
    (i : Fin n) : down other (items.map label) i = (down higher items i).map label := by
  have hget (items : Vector α n) (j : Fin n) : (items.map label).get j = label (items.get j) :=
    Vector.getElem_map label j.isLt
  induction items, i using down.induct higher with
  | case1 items i hnone =>
    rw [down_of_none hnone, down_of_none ((firstChild_map h items i).trans hnone)]
  | case2 items i child hfirst childGt hhigher ih =>
    have hfirst' := (firstChild_map h items i).trans hfirst
    have hhigher' : other ((items.map label).get child) ((items.map label).get i) = true := by
      rw [hget, hget, h]
      exact hhigher
    rw [down_of_higher hfirst hhigher, down_of_higher hfirst' hhigher', map_swap]
    exact ih
  | case3 items i child hfirst childGt hlower =>
    have hfirst' := (firstChild_map h items i).trans hfirst
    have hlower' : ¬other ((items.map label).get child) ((items.map label).get i) = true := by
      rw [hget, hget, h]
      exact hlower
    rw [down_of_not_higher hfirst hlower, down_of_not_higher hfirst' hlower']

end Sift

namespace Heap

theorem place_toArray {n : Nat} (items : Vector α n) (item : α) :
    place higher items.toArray item = (Sift.up higher (items.push item) (Fin.last n)).toArray := by
  obtain ⟨items, rfl⟩ := items
  rfl

theorem place_map (h : ∀ a b, other (label a) (label b) = higher a b) (items : Array α)
    (item : α) :
    place other (items.map label) (label item) = (place higher items item).map label := by
  have hvector : items.map label = (items.toVector.map label).toArray := rfl
  rw [hvector, place_toArray, ← Vector.map_push, Sift.up_map h]
  rfl

theorem withoutRoot_toArray {n : Nat} (higher : α → α → Bool) (items : Vector α n) (hpos : 0 < n)
    (h : 0 < items.toArray.size) :
    let others := (items.swap 0 (n - 1)).pop
    withoutRoot higher items.toArray h =
      (if more : 0 < n - 1 then Sift.down higher others ⟨0, more⟩ else others).toArray := by
  obtain ⟨items, rfl⟩ := items
  rfl

theorem withoutRoot_map (h : ∀ a b, other (label a) (label b) = higher a b) {items : Array α}
    (hpos : 0 < items.size) (hpos' : 0 < (items.map label).size) :
    withoutRoot other (items.map label) hpos' = (withoutRoot higher items hpos).map label := by
  have hothers : ((items.toVector.map label).swap 0 (items.size - 1)).pop =
      (items.toVector.swap 0 (items.size - 1)).pop.map label := by
    rw [Vector.map_pop]
    exact congrArg Vector.pop
      (Sift.map_swap label items.toVector ⟨0, hpos⟩ ⟨items.size - 1, Nat.sub_one_lt_of_lt hpos⟩)
  have hmapped := withoutRoot_toArray other (items.toVector.map label) hpos hpos'
  rw [hothers] at hmapped
  refine hmapped.trans ?_
  dsimp only [withoutRoot]
  split
  · rw [Sift.down_map h]
    rfl
  · rfl

theorem take?_map (h : ∀ a b, other (label a) (label b) = higher a b) {items others : Array α}
    {item : α} (htake : take? higher items = some (item, others)) :
    take? other (items.map label) = some (label item, others.map label) := by
  obtain ⟨hpos, rfl, rfl⟩ := exists_of_take? htake
  have hpos' : 0 < (items.map label).size := by rwa [Array.size_map]
  rw [take?_of_pos other hpos', withoutRoot_map h hpos, Array.getElem_map]

/-- The heap with its items relabelled, under a relation of the labels. -/
def relabel (other : β → β → Bool) (label : α → β) (heap : Heap higher) : Heap other :=
  ⟨heap.items.map label, heap.capacity⟩

theorem stored_relabel (heap : Heap higher) :
    (relabel other label heap).stored = Multiset.map label heap.stored := by
  rw [Container.stored, relabel, Array.toList_map]
  rfl

theorem insert_relabel (h : ∀ a b, other (label a) (label b) = higher a b) (heap : Heap higher)
    (item : α) :
    ((relabel other label heap).insert (label item)).1 =
      relabel other label (heap.insert item).1 := by
  have hitems := place_map h heap.items item
  have hsize : (relabel other label heap).size = heap.size := Array.size_map
  change Container.mk (place other (heap.items.map label) (label item))
    (heap.capacity.beforeInsert (relabel other label heap).size).1 = _
  rw [hitems, hsize]
  rfl

theorem removeExtreme_relabel (h : ∀ a b, other (label a) (label b) = higher a b)
    {heap rest : Heap higher} {item : α} {change : Option CapacityChange}
    (hremove : heap.removeExtreme = .ok (item, rest, change)) :
    (relabel other label heap).removeExtreme =
      .ok (label item, relabel other label rest, change) := by
  obtain ⟨htake, hcapacity, hchange⟩ := Container.of_remove_eq_ok hremove
  have hsize : (rest.items.map label).size = rest.size := Array.size_map
  have hrest : relabel other label rest =
      ⟨rest.items.map label, (heap.capacity.afterRemove rest.size).1⟩ := by
    rw [relabel, hcapacity]
  have hmapped : (relabel other label heap).removeExtreme = _ :=
    Container.remove_of_take?_eq_some (take?_map h htake)
  rw [hmapped, hsize, hchange, hrest]
  rfl

theorem serve_relabel (h : ∀ a b, other (label a) (label b) = higher a b) (heap : Heap higher)
    (request : Request α) :
    ((relabel other label heap).serve (request.map label)).1 =
      relabel other label (heap.serve request).1 := by
  cases request with
  | insert item => exact insert_relabel h heap item
  | remove =>
    rw [Request.map]
    by_cases hempty : heap.stored = 0
    · have hempty' : (relabel other label heap).stored = 0 := by
        rw [stored_relabel, hempty, Multiset.map_zero]
      rw [Container.serve_remove_of_error (Container.remove_of_stored_eq_zero
          (Discipline.lawful_priority higher) hempty),
        Container.serve_remove_of_error (Container.remove_of_stored_eq_zero
          (Discipline.lawful_priority other) hempty')]
    · obtain ⟨item, rest, change, hremove⟩ :=
        Container.exists_remove (Discipline.lawful_priority higher) hempty
      rw [Container.serve_remove_of_ok hremove,
        Container.serve_remove_of_ok (removeExtreme_relabel h hremove)]

/-- Requests with relabelled items lead a relabelled heap the same way. -/
theorem run_relabel (h : ∀ a b, other (label a) (label b) = higher a b) (heap : Heap higher)
    (requests : List (Request α)) :
    ((relabel other label heap).run (requests.map (Request.map label))).1 =
      relabel other label (heap.run requests).1 := by
  induction requests generalizing heap with
  | nil => rfl
  | cons request requests ih =>
    rw [List.map_cons, Container.run_cons, Container.run_cons, serve_relabel h]
    exact ih _

end Heap

theorem exists_map_of_present {requests : List (Request (Option α))}
    (h : .insert none ∉ requests) :
    ∃ given : List (Request α), requests = given.map (.map some) := by
  induction requests with
  | nil => exact ⟨[], rfl⟩
  | cons request requests ih =>
    rw [List.mem_cons, not_or] at h
    obtain ⟨given, rfl⟩ := ih h.2
    cases request with
    | remove => exact ⟨.remove :: given, rfl⟩
    | insert item =>
      cases item with
      | none => exact absurd rfl h.1
      | some value => exact ⟨.insert value :: given, rfl⟩

namespace Heap

/-- Unless a number was missing since the heap was last empty, the smallest one is handed out. -/
theorem present_numbers_leave_in_order (heap : Heap Priority.smallestPresentFirst)
    (hempty : heap.stored = 0) (requests : List (Request (Option Int)))
    (hpresent : .insert none ∉ requests) :
    let later := (heap.run requests).1
    later.stored ≠ 0 → ∃ number rest change,
      later.remove = .ok (some number, rest, change) ∧
      ∀ smaller, some smaller ∈ later.stored → number ≤ smaller := by
  intro later hsome
  obtain ⟨given, rfl⟩ := exists_map_of_present hpresent
  have hsame (a b : Int) :
      Priority.smallestPresentFirst (some a) (some b) = Priority.smallestFirst a b := rfl
  have hranks : Priority.Ranks Priority.smallestFirst := Priority.ranks_smallestFirst id
  let start : Heap Priority.smallestFirst := ⟨#[], heap.capacity⟩
  have hheap : heap = relabel Priority.smallestPresentFirst some start := by
    obtain ⟨items, capacity⟩ := heap
    obtain rfl : items = #[] := Container.stored_eq_zero_iff.1 hempty
    rw [relabel, Array.map_empty]
  have hlater : later = relabel Priority.smallestPresentFirst some (start.run given).1 := by
    rw [← run_relabel hsame, ← hheap]
  have hstart : Ordered Priority.smallestFirst start.items := ordered_empty _
  have hordered := ordered_run hranks hstart given
  have hnumbers : (start.run given).1.stored ≠ 0 := by
    intro hzero
    rw [hlater, stored_relabel, hzero] at hsome
    exact hsome rfl
  obtain ⟨number, rest, change, hremove⟩ :=
    Container.exists_remove (Discipline.lawful_priority _) hnumbers
  rw [hlater]
  refine ⟨number, _, change, removeExtreme_relabel hsame hremove, ?_⟩
  intro smaller hsmaller
  rw [stored_relabel, Multiset.mem_map] at hsmaller
  obtain ⟨value, hvalue, heq⟩ := hsmaller
  cases heq
  have hnot := not_higher_of_removeExtreme hranks hordered hremove hvalue
  exact Int.not_lt.1 (of_decide_eq_false hnot)

theorem present_numbers_after_missing :
    ∃ start : Heap Priority.smallestPresentFirst,
      Container.ofInitial (.priority _) 4 = .ok start ∧
      let heap := (start.run [.insert none, .remove]).1
      let later := (heap.run ([some 3, some 2, some 4, some 1].map .insert)).1
      heap.stored = 0 ∧ ∃ number rest change,
        later.remove = .ok (some number, rest, change) ∧
        ∀ smaller, some smaller ∈ later.stored → number ≤ smaller := by
  refine ⟨⟨#[], ⟨4, 4⟩⟩, rfl, ?_⟩
  intro heap later
  have hempty : heap.stored = 0 := by
    decide +kernel
  have hsome : later.stored ≠ 0 := by
    decide +kernel
  exact ⟨hempty, present_numbers_leave_in_order heap hempty _ (by decide) hsome⟩

/-- A missing number keeps a smaller one from rising past a larger one, which so leaves first. -/
theorem missing_number_hides_smaller :
    ¬∀ (initial : Nat) (start : Heap Priority.smallestPresentFirst),
      Container.ofInitial (.priority _) initial = .ok start →
      ∀ (requests : List (Request (Option Int))) number rest change,
      (start.run requests).1.remove = .ok (some number, rest, change) →
      ∀ smaller, some smaller ∈ (start.run requests).1.stored → number ≤ smaller := by
  intro hranked
  let start : Heap Priority.smallestPresentFirst := ⟨#[], ⟨4, 4⟩⟩
  let heap := (start.run ([some 3, none, some 4, some 1].map .insert)).1
  have hitems : heap.items = #[some 3, none, some 4, some 1] := by
    decide +kernel
  have hstored : some 1 ∈ heap.stored := by
    rw [Container.stored, hitems]
    decide
  have htake : (Discipline.priority Priority.smallestPresentFirst).take? heap.items =
      some (some 3, #[some 1, none, some 4]) := by
    rw [hitems]
    decide +kernel
  have hfirst := hranked 4 start rfl _ 3 _ _ (Container.remove_of_take?_eq_some htake) 1 hstored
  exact absurd hfirst (by decide)

end Heap

end Keyspace
