import Keyspace.Container.Priority
import Keyspace.Proofs.Container.Discipline

namespace Keyspace

theorem Priority.ranks_smallestFirst {α : Type} (rank : α → Int) :
    Ranks fun a b => smallestFirst (rank a) (rank b) where
  irrefl a := by
    simp only [smallestFirst, decide_eq_true_eq]
    exact Int.lt_irrefl (rank a)
  trans a b c := by
    simp only [smallestFirst, decide_eq_true_eq]
    exact Int.lt_trans
  incomp_trans a b c := by
    simp only [smallestFirst, decide_eq_true_eq]
    omega

namespace Heap

variable {α : Type} {higher : α → α → Bool} {n : Nat}

/-- No item of a heap is higher than the one above it. -/
def Ordered (higher : α → α → Bool) (items : Array α) : Prop :=
  Sift.Ordered higher items.toVector

theorem ordered_toArray {items : Vector α n} :
    Ordered higher items.toArray ↔ Sift.Ordered higher items := by
  obtain ⟨items, rfl⟩ := items
  exact Iff.rfl

theorem ordered_empty (higher : α → α → Bool) : Ordered higher #[] :=
  fun child => child.elim0

theorem rising_push {items : Vector α n} (h : Sift.Ordered higher items) (item : α) :
    Sift.Rising higher (items.push item) (Fin.last n) := by
  have hold : ∀ (i : Fin (n + 1)) (hi : i.val < n), (items.push item).get i = items.get ⟨i, hi⟩ :=
    fun i hi => Vector.getElem_push_lt hi
  constructor
  case others =>
    intro child parent hchild hmoved
    have hlt : child.val < n := Fin.val_lt_last hmoved
    have habove : parent.val < n := Nat.lt_trans hchild.lt hlt
    rw [hold child hlt, hold parent habove]
    exact h ⟨child, hlt⟩ ⟨parent, habove⟩ hchild
  case across =>
    intro child parent hchild hparent
    exact (Nat.not_lt.2 (Fin.le_last child) hchild.lt).elim

theorem sinking_pop {items : Vector α n} (h : Sift.Ordered higher items) (hmore : 0 < n - 1) :
    Sift.Sinking higher (items.swap 0 (n - 1)).pop ⟨0, hmore⟩ := by
  have hbound : n - 1 ≤ n := Nat.sub_le n 1
  have hold : ∀ i : Fin (n - 1), i.val ≠ 0 →
      (items.swap 0 (n - 1)).pop.get i = items.get (i.castLE hbound) := fun i hi =>
    (Vector.getElem_pop i.isLt).trans (Vector.getElem_swap_of_ne hi (Nat.ne_of_lt i.isLt))
  constructor
  case others =>
    intro child parent hchild hmoved
    have hroot : parent.val ≠ 0 := fun hroot => hmoved (Fin.ext hroot)
    have hlower : child.val ≠ 0 := Nat.ne_of_gt (Nat.lt_of_le_of_lt (Nat.zero_le _) hchild.lt)
    rw [hold child hlower, hold parent hroot]
    exact h (child.castLE hbound) (parent.castLE hbound) hchild
  case across =>
    intro child parent hchild hparent
    exact (Nat.not_lt_zero _ hparent.lt).elim

theorem ordered_place (hranks : Priority.Ranks higher) {items : Array α}
    (h : Ordered higher items) (item : α) : Ordered higher (place higher items item) :=
  ordered_toArray.2 (Sift.up_ordered hranks (rising_push h item))

theorem ordered_withoutRoot (hranks : Priority.Ranks higher) {items : Array α}
    (h : Ordered higher items) (hpos : 0 < items.size) :
    Ordered higher (withoutRoot higher items hpos) := by
  rw [withoutRoot, ordered_toArray]
  split
  · rename_i hmore
    exact Sift.down_ordered hranks (sinking_pop h hmore)
  · rename_i hlast
    exact fun child => (hlast (Nat.lt_of_le_of_lt (Nat.zero_le _) child.isLt)).elim

theorem not_higher_root (hranks : Priority.Ranks higher) {items : Array α}
    (h : Ordered higher items) (hpos : 0 < items.size) {other : α} (hother : other ∈ items.toList) :
    higher other items[0] = false := by
  obtain ⟨position, hposition, rfl⟩ := List.getElem_of_mem hother
  rw [Array.length_toList] at hposition
  exact h.not_higher_root hranks hpos ⟨position, hposition⟩

theorem ordered_insert (hranks : Priority.Ranks higher) {heap : Heap higher}
    (h : Ordered higher heap.items) (item : α) : Ordered higher (heap.insert item).1.items := by
  rw [items_insert]
  exact ordered_place hranks h item

theorem ordered_removeExtreme (hranks : Priority.Ranks higher) {heap rest : Heap higher}
    (h : Ordered higher heap.items) {item : α} {change : Option CapacityChange}
    (hremove : heap.removeExtreme = .ok (item, rest, change)) : Ordered higher rest.items := by
  obtain ⟨hpos, -, hrest⟩ := exists_of_removeExtreme hremove
  rw [hrest]
  exact ordered_withoutRoot hranks h hpos

theorem ordered_serve (hranks : Priority.Ranks higher) {heap : Heap higher}
    (h : Ordered higher heap.items) (request : Request α) :
    Ordered higher (heap.serve request).1.items := by
  cases request with
  | insert item => exact ordered_insert hranks h item
  | remove =>
    exact Container.kept_serve_remove (fun later => Ordered higher later.items) h
      fun hremove => ordered_removeExtreme hranks h hremove

theorem ordered_run (hranks : Priority.Ranks higher) {heap : Heap higher}
    (h : Ordered higher heap.items) (requests : List (Request α)) :
    Ordered higher (heap.run requests).1.items :=
  Container.run_invariant (fun later => Ordered higher later.items) (fun _ => True)
    (fun _ request hordered _ => ordered_serve hranks hordered request) h requests
    fun _ _ => trivial

theorem not_higher_of_removeExtreme (hranks : Priority.Ranks higher) {heap rest : Heap higher}
    (h : Ordered higher heap.items) {item : α} {change : Option CapacityChange}
    (hremove : heap.removeExtreme = .ok (item, rest, change)) {other : α}
    (hother : other ∈ heap.stored) : higher other item = false := by
  obtain ⟨hpos, rfl, -⟩ := exists_of_removeExtreme hremove
  exact not_higher_root hranks h hpos (Multiset.mem_coe.1 hother)

theorem pairwise_drained (hranks : Priority.Ranks higher) (heap : Heap higher)
    (h : Ordered higher heap.items) :
    heap.drained.Pairwise fun earlier later => higher later earlier = false := by
  have hlawful := Discipline.lawful_priority higher
  induction heap using Container.removal_induction hlawful with
  | empty heap hempty =>
    rw [Container.drained_of_stored_eq_zero hempty]
    exact List.Pairwise.nil
  | remove heap item rest change hremove ih =>
    rw [Container.drained_of_remove hlawful hremove]
    refine List.Pairwise.cons (fun later hlater => ?_) (ih (ordered_removeExtreme hranks h hremove))
    have hstored : later ∈ heap.stored := by
      rw [Container.stored_of_remove hlawful hremove, ← Container.coe_drained hlawful rest]
      exact Multiset.mem_cons_of_mem (Multiset.mem_coe.2 hlater)
    exact not_higher_of_removeExtreme hranks h hremove hstored

/-- The item that leaves a heap is the one shown as the next, and no stored one is higher. -/
theorem extreme_item_leaves_first (hranks : Priority.Ranks higher) {initial : Nat}
    (hinitial : 0 < initial) :
    ∃ start : Heap higher, Container.ofInitial (.priority higher) initial = .ok start ∧
      start.stored = 0 ∧ ∀ requests : List (Request α),
      let heap := (start.run requests).1
      (∀ item, (heap.insert item).1.stored = item ::ₘ heap.stored) ∧
      (heap.stored = 0 → heap.remove = .error .empty) ∧
      (heap.stored ≠ 0 → ∃ item rest change, heap.remove = .ok (item, rest, change) ∧
        heap.next? = some item ∧ (∀ other ∈ heap.stored, higher other item = false) ∧
        heap.stored = item ::ₘ rest.stored) ∧
      (heap.drained : Multiset α) = heap.stored ∧ heap.drain.1.stored = 0 ∧
      heap.drained.Pairwise fun earlier later => higher later earlier = false := by
  have hlawful := Discipline.lawful_priority higher
  refine ⟨⟨#[], ⟨initial, initial⟩⟩, Container.ofInitial_of_pos _ hinitial, rfl, ?_⟩
  intro requests heap
  have hordered : Ordered higher heap.items := ordered_run hranks (ordered_empty higher) requests
  refine ⟨Container.stored_insert hlawful heap, Container.remove_of_stored_eq_zero hlawful, ?_,
    Container.coe_drained hlawful heap, Container.stored_drain hlawful heap,
    pairwise_drained hranks heap hordered⟩
  intro hsome
  obtain ⟨item, rest, change, hremove⟩ := Container.exists_remove hlawful hsome
  exact ⟨item, rest, change, hremove, Container.next?_of_remove hlawful hremove,
    fun other hother => not_higher_of_removeExtreme hranks hordered hremove hother,
    Container.stored_of_remove hlawful hremove⟩

theorem drained_after_ties :
    ∃ start : Heap fun a b : Int × Int => Priority.smallestFirst a.1 b.1,
      Container.ofInitial (.priority _) 1 = .ok start ∧
      let heap := (start.run
        [.insert (2, 0), .insert (1, 0), .insert (1, 1), .insert (0, 5), .remove]).1
      heap.drained = [(1, 0), (1, 1), (2, 0)] ∧
      heap.drained.Pairwise (fun earlier later =>
        Priority.smallestFirst later.1 earlier.1 = false) ∧
      ∃ item rest change, heap.remove = .ok (item, rest, change) ∧ heap.next? = some item ∧
        (∀ other ∈ heap.stored, Priority.smallestFirst other.1 item.1 = false) ∧
        heap.stored = item ::ₘ rest.stored := by
  have hranks := Priority.ranks_smallestFirst (Prod.fst : Int × Int → Int)
  obtain ⟨start, hstart, -, hrun⟩ := extreme_item_leaves_first hranks Nat.one_pos
  obtain ⟨-, -, htake, hdrained, -, hpairwise⟩ := hrun
    [.insert (2, 0), .insert (1, 0), .insert (1, 1), .insert (0, 5), .remove]
  have hlist : (start.run [.insert (2, 0), .insert (1, 0), .insert (1, 1), .insert (0, 5),
      .remove]).1.drained = [(1, 0), (1, 1), (2, 0)] := by
    cases hstart
    decide +kernel
  refine ⟨start, hstart, hlist, hpairwise, htake ?_⟩
  rw [← hdrained, hlist, ← Multiset.cons_coe]
  exact Multiset.cons_ne_zero

end Heap

end Keyspace
