import Keyspace.Proofs.Container.Heap
import Keyspace.Proofs.Container.Rounds

namespace Keyspace.Heap

open Sift

variable {α : Type} {higher : α → α → Bool} {items : Array α}

/-- At every position of a kind, the item is not higher than the one at the parent position. -/
def OrderedAt (higher : α → α → Bool) (kind : Nat → Prop) (items : Array α) : Prop :=
  ∀ i (h : i < items.size), kind i → higher items[i] items[(i - 1) / 2] = false

instance {kind : Nat → Prop} [DecidablePred kind] : Decidable (OrderedAt higher kind items) :=
  inferInstanceAs (Decidable (∀ i (h : i < items.size), kind i →
    higher items[i] items[(i - 1) / 2] = false))

abbrev InOrder (higher : α → α → Bool) (items : Array α) : Prop :=
  OrderedAt higher (0 < ·) items

theorem OrderedAt.not_higher {kind : Nat → Prop} (h : OrderedAt higher kind items)
    {child parent : Fin items.size} (hchild : IsChild child parent) (hkind : kind child) :
    higher (items.toVector.get child) (items.toVector.get parent) = false := by
  have hroot : ¬child.val = 0 := Nat.ne_of_gt (Nat.lt_of_le_of_lt (Nat.zero_le _) hchild.lt)
  obtain rfl := hchild.parent_unique (isChild_above hroot)
  exact h child child.isLt hkind

theorem Ordered.inOrder (h : Ordered higher items) : InOrder higher items := by
  intro i hi hpos
  exact h ⟨i, hi⟩ _ (isChild_above (Nat.ne_of_gt hpos))

theorem OrderedAt.rising {last : Nat} (h : OrderedAt higher (fun i => 0 < i ∧ i ≠ last) items)
    (hlast : last < items.size) (hend : last + 1 = items.size) :
    Rising higher items.toVector ⟨last, hlast⟩ := by
  constructor
  case others =>
    intro child parent hchild hmoved
    have hpos : 0 < child.val := Nat.lt_of_le_of_lt (Nat.zero_le _) hchild.lt
    exact h.not_higher hchild ⟨hpos, fun hsame => hmoved (Fin.ext hsame)⟩
  case across =>
    -- nothing stands below the last position
    intro child parent hchild hparent
    have hbelow : last < child.val := hchild.lt
    omega

theorem OrderedAt.sinking (h : OrderedAt higher (fun i => 0 < (i - 1) / 2) items)
    (hpos : 0 < items.size) : Sinking higher items.toVector ⟨0, hpos⟩ := by
  constructor
  case others =>
    intro child parent hchild hmoved
    have hroot : parent.val ≠ 0 := fun hroot => hmoved (Fin.ext hroot)
    refine h.not_higher hchild ?_
    rw [IsChild] at hchild
    omega
  case across =>
    intro child parent hchild hparent
    exact (Nat.not_lt_zero _ hparent.lt).elim

theorem inOrder_up (hranks : Priority.Ranks higher) {last : Nat} (hlast : last < items.size)
    (hend : last + 1 = items.size) (h : OrderedAt higher (fun i => 0 < i ∧ i ≠ last) items) :
    InOrder higher (up higher items.toVector ⟨last, hlast⟩).toArray :=
  (ordered_toArray.2 (up_ordered hranks (h.rising hlast hend))).inOrder

theorem inOrder_down (hranks : Priority.Ranks higher) (hpos : 0 < items.size)
    (h : OrderedAt higher (fun i => 0 < (i - 1) / 2) items) :
    InOrder higher (down higher items.toVector ⟨0, hpos⟩).toArray :=
  (ordered_toArray.2 (down_ordered hranks (h.sinking hpos))).inOrder

theorem inOrder_run (hranks : Priority.Ranks higher) {heap : Heap higher}
    (h : Ordered higher heap.items) (requests : List (Request α)) :
    InOrder higher (heap.run requests).1.items :=
  (ordered_run hranks h requests).inOrder

/-- No item of a heap is ever higher than the one at its parent position. -/
theorem parent_never_outranked (hranks : Priority.Ranks higher) :
    (∀ {initial : Nat}, 0 < initial → ∃ start : Heap higher,
      Container.ofInitial (.priority higher) initial = .ok start ∧
      ∀ requests : List (Request α), InOrder higher (start.run requests).1.items) ∧
    (∀ (items : Array α) {last : Nat} (hlast : last < items.size), last + 1 = items.size →
      let risen := (up higher items.toVector ⟨last, hlast⟩).toArray
      Ends (upRound higher) items last risen ∧ risen.Perm items ∧
        (OrderedAt higher (fun i => 0 < i ∧ i ≠ last) items → InOrder higher risen)) ∧
    ∀ items : Array α, ∃ sunk,
      (∀ hpos : 0 < items.size, sunk = (down higher items.toVector ⟨0, hpos⟩).toArray) ∧
      Ends (downRound higher) items 0 sunk ∧ sunk.Perm items ∧
      (OrderedAt higher (fun i => 0 < (i - 1) / 2) items → InOrder higher sunk) := by
  refine ⟨?runs, ?rising, ?sinking⟩
  case runs =>
    intro initial hinitial
    exact ⟨⟨#[], ⟨initial, initial⟩⟩, Container.ofInitial_of_pos _ hinitial,
      inOrder_run hranks (ordered_empty higher)⟩
  case rising =>
    intro items last hlast hend risen
    exact ⟨ends_up higher items.toVector ⟨last, hlast⟩, (up_perm higher items.toVector _).toArray,
      inOrder_up hranks hlast hend⟩
  case sinking =>
    intro items
    by_cases hpos : 0 < items.size
    · exact ⟨_, fun _ => rfl, ends_down higher items.toVector ⟨0, hpos⟩,
        (down_perm higher items.toVector _).toArray, inOrder_down hranks hpos⟩
    · have hstop : ¬2 * 0 + 1 < items.size := by omega
      refine ⟨items, fun h => absurd h hpos, .stop (if_neg hstop), .refl items, ?_⟩
      intro _ i hi hroot
      omega

theorem parent_not_outranked_among_ties :
    let higher := fun a b : Int × Int => Priority.smallestFirst a.1 b.1
    (∃ start : Heap higher, Container.ofInitial (.priority _) 1 = .ok start ∧
      let items := (start.run
        [.insert (2, 0), .insert (1, 0), .insert (1, 1), .insert (0, 5), .remove]).1.items
      items.toList = [(1, 0), (2, 0), (1, 1)] ∧ InOrder higher items) ∧
    (Ends (upRound higher) #[(1, 0), (2, 0), (3, 0), (2, 1), (1, 9)] 4
        #[(1, 0), (1, 9), (3, 0), (2, 1), (2, 0)] ∧
      InOrder higher #[(1, 0), (1, 9), (3, 0), (2, 1), (2, 0)]) ∧
    Ends (downRound higher) #[(5, 0), (1, 0), (1, 1), (2, 0)] 0 #[(1, 0), (2, 0), (1, 1), (5, 0)] ∧
    InOrder higher #[(1, 0), (2, 0), (1, 1), (5, 0)] := by
  intro higher
  obtain ⟨hruns, hrising, hsinking⟩ :=
    parent_never_outranked (Priority.ranks_smallestFirst (Prod.fst : Int × Int → Int))
  obtain ⟨start, hstart, hrun⟩ := hruns Nat.one_pos
  have hitems : (start.run [.insert (2, 0), .insert (1, 0), .insert (1, 1), .insert (0, 5),
      .remove]).1.items.toList = [(1, 0), (2, 0), (1, 1)] := by
    cases hstart
    decide +kernel
  obtain ⟨hup, -, hrisen⟩ :=
    hrising #[(1, 0), (2, 0), (3, 0), (2, 1), (1, 9)] (by decide : 4 < 5) rfl
  have hup_items :
      (up higher #[(1, 0), (2, 0), (3, 0), (2, 1), (1, 9)].toVector ⟨4, by decide⟩).toArray =
        #[(1, 0), (1, 9), (3, 0), (2, 1), (2, 0)] := by
    decide +kernel
  rw [hup_items] at hup hrisen
  obtain ⟨sunk, hsunk, hdown, -, hlowered⟩ := hsinking #[(5, 0), (1, 0), (1, 1), (2, 0)]
  have hdown_items : sunk = #[(1, 0), (2, 0), (1, 1), (5, 0)] :=
    (hsunk (by decide)).trans (by decide +kernel)
  rw [hdown_items] at hdown hlowered
  exact ⟨⟨start, hstart, hitems, hrun _⟩, ⟨hup, hrisen (by decide +kernel)⟩, hdown,
    hlowered (by decide +kernel)⟩

end Keyspace.Heap
