import Mathlib.Data.Multiset.AddSub
import Keyspace.Container.Run
import Keyspace.Container.Stack
import Keyspace.Container.Heap
import Keyspace.Proofs.Container.Sift

namespace Keyspace

variable {α : Type} {discipline : Discipline α}

/-- A discipline keeps every item exactly once, and hands one out unless there is none. -/
structure Discipline.Lawful (discipline : Discipline α) : Prop where
  place_perm : ∀ items item, (discipline.place items item).toList.Perm (item :: items.toList)
  take?_eq_none_iff : ∀ items, discipline.take? items = none ↔ items = #[]
  take?_perm : ∀ {items item others}, discipline.take? items = some (item, others) →
    items.toList.Perm (item :: others.toList)
  next?_eq : ∀ items, discipline.next? items = (discipline.take? items).map Prod.fst

theorem Discipline.lawful_lifo (α : Type) : (lifo α).Lawful where
  place_perm items item := by
    rw [lifo, Array.toList_push]
    exact List.perm_append_singleton item items.toList
  take?_eq_none_iff items := by
    rw [lifo, Option.map_eq_none_iff, Array.back?_eq_none_iff]
  take?_perm := by
    intro items item others h
    obtain ⟨last, hlast, heq⟩ := Option.map_eq_some_iff.1 h
    cases heq
    obtain ⟨kept, rfl⟩ := Array.back?_eq_some_iff.1 hlast
    rw [Array.pop_push, Array.toList_push]
    exact List.perm_append_singleton item kept.toList
  next?_eq items := by
    simp only [lifo, Option.map_map, Function.comp_def, Option.map_id']

namespace Heap

variable {higher : α → α → Bool} {n : Nat}

theorem place_perm (higher : α → α → Bool) (items : Array α) (item : α) :
    (place higher items item).toList.Perm (item :: items.toList) := by
  have hsift := (Sift.up_perm higher (items.toVector.push item) (Fin.last items.size)).toList
  rw [Vector.toList_push] at hsift
  exact hsift.trans (List.perm_append_singleton item items.toList)

theorem root_cons_pop_perm (items : Vector α n) (h : 0 < n) :
    items.toList.Perm (items[0] :: (items.swap 0 (n - 1)).pop.toList) := by
  have hswap : (items.swap 0 (n - 1)).toList.Perm items.toList :=
    (Vector.swap_perm h (Nat.sub_one_lt_of_lt h)).toList
  have hlast : (items.swap 0 (n - 1)).toList.getLast? = some items[0] := by
    rw [List.getLast?_eq_getElem?, Vector.length_toList, Vector.getElem?_toList,
      Vector.getElem?_eq_getElem (Nat.sub_one_lt_of_lt h), Vector.getElem_swap_right]
  have hsplit := List.dropLast_append_getLast? items[0] hlast
  rw [← Vector.toList_pop] at hsplit
  rw [← hsplit] at hswap
  exact hswap.symm.trans (List.perm_append_singleton _ _)

theorem withoutRoot_perm (higher : α → α → Bool) (items : Array α) (h : 0 < items.size) :
    items.toList.Perm (items[0] :: (withoutRoot higher items h).toList) := by
  have hroot := root_cons_pop_perm items.toVector h
  dsimp only [withoutRoot]
  split
  · rename_i hmore
    have hsift := Sift.down_perm higher (items.toVector.swap 0 (items.size - 1)).pop ⟨0, hmore⟩
    exact hroot.trans (hsift.toList.symm.cons _)
  · exact hroot

theorem take?_empty (higher : α → α → Bool) : take? higher #[] = none :=
  dif_neg (Nat.lt_irrefl 0)

theorem take?_of_pos (higher : α → α → Bool) {items : Array α} (h : 0 < items.size) :
    take? higher items = some (items[0], withoutRoot higher items h) :=
  dif_pos h

theorem take?_eq_none_iff (items : Array α) : take? higher items = none ↔ items = #[] := by
  constructor
  · intro h
    by_contra hitems
    rw [take?_of_pos higher (Array.size_pos_iff.2 hitems)] at h
    cases h
  · rintro rfl
    exact take?_empty higher

theorem exists_of_take? {items others : Array α} {item : α}
    (h : take? higher items = some (item, others)) :
    ∃ hpos : 0 < items.size, item = items[0] ∧ others = withoutRoot higher items hpos := by
  have hitems : items ≠ #[] := by
    rintro rfl
    rw [take?_empty] at h
    cases h
  have hpos := Array.size_pos_iff.2 hitems
  rw [take?_of_pos higher hpos] at h
  cases h
  exact ⟨hpos, rfl, rfl⟩

theorem take?_perm {items others : Array α} {item : α}
    (h : take? higher items = some (item, others)) : items.toList.Perm (item :: others.toList) := by
  obtain ⟨hpos, rfl, rfl⟩ := exists_of_take? h
  exact withoutRoot_perm higher items hpos

theorem map_fst_take? (items : Array α) : (take? higher items).map Prod.fst = items[0]? := by
  by_cases hitems : items = #[]
  · subst hitems
    rfl
  · have hpos := Array.size_pos_iff.2 hitems
    rw [take?_of_pos higher hpos, Array.getElem?_eq_getElem hpos]
    rfl

end Heap

theorem Discipline.lawful_priority (higher : α → α → Bool) : (priority higher).Lawful where
  place_perm := Heap.place_perm higher
  take?_eq_none_iff := Heap.take?_eq_none_iff
  take?_perm := Heap.take?_perm
  next?_eq items := (Heap.map_fst_take? items).symm

theorem Discipline.lawful_of_kind
    (h : discipline = .lifo α ∨ ∃ higher, discipline = .priority higher) : discipline.Lawful := by
  obtain rfl | ⟨higher, rfl⟩ := h
  · exact lawful_lifo α
  · exact lawful_priority higher

namespace Container

variable {container after : Container discipline} {item : α} {change : Option CapacityChange}

theorem ofInitial_of_pos (discipline : Discipline α) {initial : Nat} (h : 0 < initial) :
    ofInitial discipline initial = .ok ⟨#[], ⟨initial, initial⟩⟩ := by
  rw [ofInitial, Capacity.ofInitial, if_neg (Nat.ne_of_gt h)]
  rfl

/-- The items in a container, without the places that they have. -/
def stored (container : Container discipline) : Multiset α :=
  container.items.toList

theorem card_stored (container : Container discipline) :
    container.stored.card = container.size := by
  rw [stored, Multiset.coe_card, Array.length_toList, size]

theorem stored_eq_zero_iff : container.stored = 0 ↔ container.items = #[] := by
  rw [stored, Multiset.coe_eq_zero, Array.toList_eq_nil_iff]

theorem stored_eq_zero_iff_size : container.stored = 0 ↔ container.size = 0 := by
  rw [← Multiset.card_eq_zero, card_stored]

theorem isEmpty_iff : container.isEmpty = true ↔ container.stored = 0 := by
  rw [stored_eq_zero_iff, isEmpty, Array.isEmpty_iff]

theorem stored_insert (hlawful : discipline.Lawful) (container : Container discipline) (item : α) :
    (container.insert item).1.stored = item ::ₘ container.stored := by
  rw [stored, stored, Multiset.cons_coe, Multiset.coe_eq_coe]
  exact hlawful.place_perm container.items item

theorem size_insert (hlawful : discipline.Lawful) (container : Container discipline) (item : α) :
    (container.insert item).1.size = container.size + 1 := by
  rw [← card_stored, stored_insert hlawful, Multiset.card_cons, card_stored]

theorem remove_of_take?_eq_none (h : discipline.take? container.items = none) :
    container.remove = .error .empty := by
  rw [remove, h]

theorem remove_of_take?_eq_some {others : Array α}
    (h : discipline.take? container.items = some (item, others)) :
    container.remove = .ok (item, ⟨others, (container.capacity.afterRemove others.size).1⟩,
      (container.capacity.afterRemove others.size).2.map fun resize =>
        ⟨.shrink, resize, others.size⟩) := by
  rw [remove, h]

theorem remove_of_stored_eq_zero (hlawful : discipline.Lawful) (h : container.stored = 0) :
    container.remove = .error .empty :=
  remove_of_take?_eq_none ((hlawful.take?_eq_none_iff _).2 (stored_eq_zero_iff.1 h))

theorem next?_of_stored_eq_zero (hlawful : discipline.Lawful) (h : container.stored = 0) :
    container.next? = none := by
  rw [next?, hlawful.next?_eq, (hlawful.take?_eq_none_iff _).2 (stored_eq_zero_iff.1 h)]
  rfl

theorem exists_remove (hlawful : discipline.Lawful) (h : container.stored ≠ 0) :
    ∃ item after change, container.remove = .ok (item, after, change) := by
  have htake : discipline.take? container.items ≠ none := by
    intro hnone
    exact h (stored_eq_zero_iff.2 ((hlawful.take?_eq_none_iff _).1 hnone))
  obtain ⟨⟨item, others⟩, hsome⟩ := Option.ne_none_iff_exists'.1 htake
  exact ⟨item, _, _, remove_of_take?_eq_some hsome⟩

theorem of_remove_eq_ok (h : container.remove = .ok (item, after, change)) :
    discipline.take? container.items = some (item, after.items) ∧
      after.capacity = (container.capacity.afterRemove after.size).1 ∧
      change = (container.capacity.afterRemove after.size).2.map fun resize =>
        ⟨.shrink, resize, after.size⟩ := by
  cases htake : discipline.take? container.items with
  | none =>
    rw [remove_of_take?_eq_none htake] at h
    cases h
  | some taken =>
    obtain ⟨first, others⟩ := taken
    rw [remove_of_take?_eq_some htake] at h
    cases h
    exact ⟨rfl, rfl, rfl⟩

theorem stored_of_remove (hlawful : discipline.Lawful)
    (h : container.remove = .ok (item, after, change)) :
    container.stored = item ::ₘ after.stored := by
  rw [stored, stored, Multiset.cons_coe, Multiset.coe_eq_coe]
  exact hlawful.take?_perm (of_remove_eq_ok h).1

theorem size_of_remove (hlawful : discipline.Lawful)
    (h : container.remove = .ok (item, after, change)) : container.size = after.size + 1 := by
  rw [← card_stored, stored_of_remove hlawful h, Multiset.card_cons, card_stored]

theorem next?_of_remove (hlawful : discipline.Lawful)
    (h : container.remove = .ok (item, after, change)) : container.next? = some item := by
  rw [next?, hlawful.next?_eq, (of_remove_eq_ok h).1]
  rfl

theorem serve_insert (container : Container discipline) (item : α) :
    container.serve (.insert item) =
      ((container.insert item).1, ⟨.ok none, (container.insert item).2,
        (container.insert item).1.size, (container.insert item).1.capacity⟩) :=
  rfl

theorem serve_remove_of_error {error : ContainerError} (h : container.remove = .error error) :
    container.serve .remove =
      (container, ⟨.error error, none, container.size, container.capacity⟩) := by
  rw [serve, h]

theorem serve_remove_of_ok (h : container.remove = .ok (item, after, change)) :
    container.serve .remove = (after, ⟨.ok (some item), change, after.size, after.capacity⟩) := by
  rw [serve, h]

theorem kept_serve_remove (kept : Container discipline → Prop) (h : kept container)
    (hkept : ∀ {item after change}, container.remove = .ok (item, after, change) → kept after) :
    kept (container.serve .remove).1 := by
  cases hremove : container.remove with
  | error error => rwa [serve_remove_of_error hremove]
  | ok removed =>
    obtain ⟨item, after, change⟩ := removed
    rw [serve_remove_of_ok hremove]
    exact hkept hremove

theorem run_cons (container : Container discipline) (request : Request α)
    (requests : List (Request α)) :
    container.run (request :: requests) =
      (((container.serve request).1.run requests).1,
        (container.serve request).2 :: ((container.serve request).1.run requests).2) :=
  rfl

theorem run_append (container : Container discipline) (earlier later : List (Request α)) :
    container.run (earlier ++ later) =
      (((container.run earlier).1.run later).1,
        (container.run earlier).2 ++ ((container.run earlier).1.run later).2) := by
  induction earlier generalizing container with
  | nil => rfl
  | cons request earlier ih => rw [List.cons_append, run_cons, ih, run_cons, List.cons_append]

theorem length_run (container : Container discipline) (requests : List (Request α)) :
    (container.run requests).2.length = requests.length := by
  induction requests generalizing container with
  | nil => rfl
  | cons request requests ih => rw [run_cons, List.length_cons, List.length_cons, ih]

/-- What every request with an allowed reply keeps is kept by a run with such replies. -/
theorem run_invariant (kept : Container discipline → Prop) (allowed : Reply α → Prop)
    (hserve : ∀ container request, kept container → allowed (container.serve request).2 →
      kept (container.serve request).1)
    (h : kept container) (requests : List (Request α))
    (hreplies : ∀ reply ∈ (container.run requests).2, allowed reply) :
    kept (container.run requests).1 := by
  induction requests generalizing container with
  | nil => exact h
  | cons request requests ih =>
    have hfirst := hreplies _ List.mem_cons_self
    exact ih (hserve container request h hfirst) fun reply hreply =>
      hreplies reply (List.mem_cons_of_mem _ hreply)

/-- The items that come out of a container until it is empty. -/
def drained (container : Container discipline) : List α :=
  container.drain.2.filterMap Reply.item?

theorem drain_of_stored_eq_zero (h : container.stored = 0) : container.drain = (container, []) := by
  have hsize : container.size = 0 := by rw [← card_stored, h, Multiset.card_zero]
  rw [drain, hsize]
  rfl

theorem drain_of_remove (hlawful : discipline.Lawful)
    (h : container.remove = .ok (item, after, change)) :
    container.drain = (after.drain.1,
      ⟨.ok (some item), change, after.size, after.capacity⟩ :: after.drain.2) := by
  rw [drain, size_of_remove hlawful h, List.replicate_succ, run, serve_remove_of_ok h]
  rfl

theorem drained_of_stored_eq_zero (h : container.stored = 0) : container.drained = [] := by
  rw [drained, drain_of_stored_eq_zero h]
  rfl

theorem drained_of_remove (hlawful : discipline.Lawful)
    (h : container.remove = .ok (item, after, change)) :
    container.drained = item :: after.drained := by
  rw [drained, drain_of_remove hlawful h]
  rfl

/-- An induction on the removals that empty a container. -/
theorem removal_induction (hlawful : discipline.Lawful) {motive : Container discipline → Prop}
    (empty : ∀ container, container.stored = 0 → motive container)
    (remove : ∀ container item after change,
      container.remove = .ok (item, after, change) → motive after → motive container)
    (container : Container discipline) : motive container := by
  induction hsize : container.size generalizing container with
  | zero => exact empty container (by rwa [← Multiset.card_eq_zero, card_stored])
  | succ size ih =>
    have hsome : container.stored ≠ 0 := by
      rw [← Multiset.card_pos, card_stored, hsize]
      exact Nat.succ_pos size
    obtain ⟨item, after, change, hremove⟩ := exists_remove hlawful hsome
    have hafter : after.size = size :=
      Nat.succ.inj ((size_of_remove hlawful hremove).symm.trans hsize)
    exact remove container item after change hremove (ih after hafter)

theorem coe_drained (hlawful : discipline.Lawful) (container : Container discipline) :
    (container.drained : Multiset α) = container.stored := by
  induction container using removal_induction hlawful with
  | empty container hempty =>
    rw [drained_of_stored_eq_zero hempty, hempty]
    rfl
  | remove container item after change hremove ih =>
    rw [drained_of_remove hlawful hremove, stored_of_remove hlawful hremove, ← Multiset.cons_coe,
      ih]

theorem stored_drain (hlawful : discipline.Lawful) (container : Container discipline) :
    container.drain.1.stored = 0 := by
  induction container using removal_induction hlawful with
  | empty container hempty => rwa [drain_of_stored_eq_zero hempty]
  | remove container item after change hremove ih => rwa [drain_of_remove hlawful hremove]

end Container

namespace Heap

variable {higher : α → α → Bool} {heap rest : Heap higher} {item : α}
  {change : Option CapacityChange}

theorem exists_of_removeExtreme (h : heap.removeExtreme = .ok (item, rest, change)) :
    ∃ hpos : 0 < heap.items.size, item = heap.items[0] ∧
      rest.items = withoutRoot higher heap.items hpos :=
  exists_of_take? (Container.of_remove_eq_ok h).1

end Heap

end Keyspace
