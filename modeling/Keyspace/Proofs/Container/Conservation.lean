import Keyspace.Proofs.Container.Discipline
import Keyspace.Proofs.Container.Rounds

namespace Keyspace

variable {α : Type} {discipline : Discipline α}

def Request.item? : Request α → Option α
  | .insert item => some item
  | .remove => none

/-- The items that requests put in, as often as they put them in. -/
def inserted (requests : List (Request α)) : Multiset α :=
  requests.filterMap Request.item?

/-- The items that came out with replies, as often as they came out. -/
def returned (replies : List (Reply α)) : Multiset α :=
  replies.filterMap Reply.item?

theorem inserted_map_insert (items : List α) : inserted (items.map .insert) = items := by
  have hitem : Request.item? ∘ Request.insert = (some : α → Option α) := rfl
  rw [inserted, List.filterMap_map, hitem, List.filterMap_some]

theorem inserted_append (earlier later : List (Request α)) :
    inserted (earlier ++ later) = inserted earlier + inserted later := by
  rw [inserted, List.filterMap_append]
  rfl

theorem returned_append (earlier later : List (Reply α)) :
    returned (earlier ++ later) = returned earlier + returned later := by
  rw [returned, List.filterMap_append]
  rfl

theorem returned_cons_of_none {reply : Reply α} (h : reply.item? = none)
    (replies : List (Reply α)) : returned (reply :: replies) = returned replies := by
  rw [returned, List.filterMap_cons_none h]
  rfl

theorem returned_cons_of_some {reply : Reply α} {item : α} (h : reply.item? = some item)
    (replies : List (Reply α)) : returned (reply :: replies) = item ::ₘ returned replies := by
  rw [returned, List.filterMap_cons_some h]
  rfl

theorem card_inserted_cons (request : Request α) (requests : List (Request α)) :
    (inserted (request :: requests)).card =
      (inserted [request]).card + (inserted requests).card := by
  rw [← Multiset.card_add, ← inserted_append]
  rfl

theorem card_returned_cons (reply : Reply α) (replies : List (Reply α)) :
    (returned (reply :: replies)).card = (returned [reply]).card + (returned replies).card := by
  rw [← Multiset.card_add, ← returned_append]
  rfl

theorem card_inserted_le (requests : List (Request α)) :
    (inserted requests).card ≤ requests.length :=
  List.length_filterMap_le Request.item? requests

theorem card_returned_le (replies : List (Reply α)) : (returned replies).card ≤ replies.length :=
  List.length_filterMap_le Reply.item? replies

namespace Container

variable {container : Container discipline}

/-- One request moves items between the outside and the container, and changes nothing else. -/
theorem stored_serve (hlawful : discipline.Lawful) (container : Container discipline)
    (request : Request α) :
    (container.serve request).1.stored + returned [(container.serve request).2] =
      container.stored + inserted [request] := by
  cases request with
  | insert item =>
    rw [serve_insert, stored_insert hlawful, returned_cons_of_none rfl]
    exact (Multiset.add_cons item container.stored 0).symm
  | remove =>
    by_cases hempty : container.stored = 0
    · rw [serve_remove_of_error (remove_of_stored_eq_zero hlawful hempty),
        returned_cons_of_none rfl]
      rfl
    · obtain ⟨item, after, change, hremove⟩ := exists_remove hlawful hempty
      rw [serve_remove_of_ok hremove, returned_cons_of_some rfl, stored_of_remove hlawful hremove]
      exact Multiset.add_cons item after.stored 0

theorem stored_run (hlawful : discipline.Lawful) (container : Container discipline)
    (requests : List (Request α)) :
    (container.run requests).1.stored + returned (container.run requests).2 =
      container.stored + inserted requests := by
  induction requests generalizing container with
  | nil => rfl
  | cons request requests ih =>
    let served := container.serve request
    let final := served.1.run requests
    calc final.1.stored + returned (served.2 :: final.2)
        = final.1.stored + (returned [served.2] + returned final.2) := by
          rw [← returned_append]
          rfl
      _ = final.1.stored + returned final.2 + returned [served.2] := by
        rw [Multiset.add_comm (returned [served.2]), Multiset.add_assoc]
      _ = served.1.stored + (returned [served.2] + inserted requests) := by
        rw [ih served.1, Multiset.add_assoc, Multiset.add_comm (returned [served.2])]
      _ = container.stored + (inserted [request] + inserted requests) := by
        rw [← Multiset.add_assoc, stored_serve hlawful, Multiset.add_assoc]
      _ = container.stored + inserted (request :: requests) := by
        rw [← inserted_append]
        rfl

theorem size_run (hlawful : discipline.Lawful) (container : Container discipline)
    (requests : List (Request α)) :
    (container.run requests).1.size + (returned (container.run requests).2).card =
      container.size + (inserted requests).card := by
  rw [← card_stored, ← card_stored, ← Multiset.card_add, stored_run hlawful, Multiset.card_add]

theorem returned_run_insert (container : Container discipline) (items : List α) :
    returned (container.run (items.map .insert)).2 = 0 := by
  induction items generalizing container with
  | nil => rfl
  | cons item items ih => exact (returned_cons_of_none rfl _).trans (ih _)

theorem drained_perm (hlawful : discipline.Lawful) (h : container.stored = 0) (items : List α) :
    (container.run (items.map .insert)).1.drained.Perm items := by
  have hstored := stored_run hlawful container (items.map .insert)
  rw [returned_run_insert, h, inserted_map_insert, ← coe_drained hlawful, Multiset.add_zero,
    Multiset.zero_add] at hstored
  exact Multiset.coe_eq_coe.1 hstored

end Container

namespace Heap

variable {higher : α → α → Bool}

theorem ends_place (higher : α → α → Bool) (items : Array α) (item : α) :
    Sift.Ends (Sift.upRound higher) (items.push item) items.size (place higher items item) :=
  Sift.ends_up higher (items.toVector.push item) (Fin.last items.size)

theorem ends_withoutRoot (higher : α → α → Bool) {items : Array α} (h : 0 < items.size) :
    Sift.Ends (Sift.downRound higher) (lastToRoot items) 0 (withoutRoot higher items h) := by
  have hlast : lastToRoot items = (items.toVector.swap 0 (items.size - 1)).pop.toArray := by
    rw [lastToRoot, Array.swapIfInBounds_def, dif_pos h, dif_pos (Nat.sub_one_lt_of_lt h)]
    rfl
  rw [hlast]
  dsimp only [withoutRoot]
  split
  · rename_i hmore
    exact Sift.ends_down higher _ ⟨0, hmore⟩
  · rename_i hone
    -- the root was the only item, so there is nothing to move down
    refine .stop (if_neg ?_)
    rw [Vector.size_toArray]
    omega

/-- For any relation, the stored items and those that came out are those that were put in. -/
theorem items_conserved (higher : α → α → Bool) {initial : Nat} (hinitial : 0 < initial) :
    ∃ start : Heap higher, Container.ofInitial (.priority higher) initial = .ok start ∧
      ∀ requests : List (Request α),
      let heap := (start.run requests).1
      heap.stored + returned (start.run requests).2 = inserted requests ∧
      heap.size = heap.stored.card ∧
      (∀ item last, Sift.Ends (Sift.upRound higher) (heap.items.push item) heap.size last ↔
        last = (heap.insert item).1.items) ∧
      (heap.isEmpty = true → heap.next? = none ∧ heap.remove = .error .empty ∧
        heap.serve .remove = (heap, ⟨.error .empty, none, heap.size, heap.capacity⟩) ∧
        ∀ items : List α, (heap.run (items.map .insert)).1.drained.Perm items) ∧
      (heap.isEmpty = false → ∃ item rest change, heap.remove = .ok (item, rest, change) ∧
        heap.next? = some item ∧
        ∀ last, Sift.Ends (Sift.downRound higher) (lastToRoot heap.items) 0 last ↔
          last = rest.items) := by
  have hlawful := Discipline.lawful_priority higher
  refine ⟨⟨#[], ⟨initial, initial⟩⟩, Container.ofInitial_of_pos _ hinitial, ?_⟩
  intro requests heap
  have hstored := Container.stored_run hlawful (⟨#[], ⟨initial, initial⟩⟩ : Heap higher) requests
  refine ⟨hstored.trans (Multiset.zero_add _), heap.card_stored.symm,
    fun item last => (ends_place higher heap.items item).iff_eq, ?_, ?_⟩
  · intro hempty
    rw [Container.isEmpty_iff] at hempty
    have hremove := Container.remove_of_stored_eq_zero hlawful hempty
    exact ⟨Container.next?_of_stored_eq_zero hlawful hempty, hremove,
      Container.serve_remove_of_error hremove, Container.drained_perm hlawful hempty⟩
  · intro hsome
    rw [← Bool.not_eq_true, Container.isEmpty_iff] at hsome
    obtain ⟨item, rest, change, hremove⟩ := Container.exists_remove hlawful hsome
    obtain ⟨hpos, -, hrest⟩ := exists_of_removeExtreme hremove
    refine ⟨item, rest, change, hremove, Container.next?_of_remove hlawful hremove, ?_⟩
    intro last
    rw [hrest]
    exact (ends_withoutRoot higher hpos).iff_eq

/-- A relation that puts every item before every other, itself included. -/
theorem items_conserved_of_always_higher :
    ∃ start : Heap fun _ _ : Nat => true, Container.ofInitial (.priority _) 2 = .ok start ∧
      let requests : List (Request Nat) := [.insert 4, .insert 5, .insert 5, .remove, .insert 6]
      let heap := (start.run requests).1
      heap.items.toList = [6, 5, 4] ∧
      heap.stored + returned (start.run requests).2 = ({4, 5, 5, 6} : Multiset Nat) ∧
      ∃ item rest change, heap.remove = .ok (item, rest, change) ∧ heap.next? = some item ∧
        Sift.Ends (Sift.downRound fun _ _ => true) (lastToRoot heap.items) 0 rest.items := by
  obtain ⟨start, hstart, hrun⟩ := items_conserved (fun _ _ : Nat => true) Nat.two_pos
  obtain ⟨hconserved, -, -, -, htake⟩ :=
    hrun [.insert 4, .insert 5, .insert 5, .remove, .insert 6]
  have hitems : (start.run
      [.insert 4, .insert 5, .insert 5, .remove, .insert 6]).1.items.toList = [6, 5, 4] := by
    cases hstart
    decide +kernel
  refine ⟨start, hstart, hitems, hconserved.trans rfl, ?_⟩
  obtain ⟨item, rest, change, hremove, hnext, hends⟩ := htake (by cases hstart; decide +kernel)
  exact ⟨item, rest, change, hremove, hnext, (hends _).2 rfl⟩

end Heap

end Keyspace
