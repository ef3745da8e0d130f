import Keyspace.Container.Priority
import Keyspace.Proofs.Container.Discipline

namespace Keyspace

/-- The request without its item. -/
def Request.outline {α : Type} : Request α → Request Unit
  | .insert _ => .insert ()
  | .remove => .remove

def Reply.outline {α : Type} (reply : Reply α) : Reply Unit :=
  { reply with taken := reply.taken.map (Option.map fun _ => ()) }

namespace Container

variable {α β : Type} {discipline : Discipline α} {other : Discipline β}
variable {first : Container discipline} {second : Container other}

/-- The two containers hold equally many items and have the same capacity. -/
structure Abreast (first : Container discipline) (second : Container other) : Prop where
  size_eq : first.size = second.size
  capacity_eq : first.capacity = second.capacity

theorem isEmpty_eq (container : Container discipline) :
    container.isEmpty = decide (container.size = 0) :=
  rfl

theorem Abreast.isEmpty_eq (h : Abreast first second) : first.isEmpty = second.isEmpty := by
  rw [Container.isEmpty_eq, Container.isEmpty_eq, h.size_eq]

theorem Abreast.stored_eq_zero_iff (h : Abreast first second) :
    first.stored = 0 ↔ second.stored = 0 := by
  rw [stored_eq_zero_iff_size, stored_eq_zero_iff_size, h.size_eq]

theorem Abreast.change_insert (h : Abreast first second) (item : α) (counterpart : β) :
    (first.insert item).2 = (second.insert counterpart).2 := by
  change ((first.capacity.beforeInsert first.size).2.map _ : Option CapacityChange) = _
  rw [h.size_eq, h.capacity_eq]
  rfl

theorem Abreast.insert (hlawful : discipline.Lawful) (hother : other.Lawful)
    (h : Abreast first second) (item : α) (counterpart : β) :
    Abreast (first.insert item).1 (second.insert counterpart).1 where
  size_eq := by rw [size_insert hlawful, size_insert hother, h.size_eq]
  capacity_eq := by
    change (first.capacity.beforeInsert first.size).1 = _
    rw [h.size_eq, h.capacity_eq]
    rfl

theorem Abreast.of_remove (hlawful : discipline.Lawful) (hother : other.Lawful)
    (h : Abreast first second) {item : α} {counterpart : β} {after : Container discipline}
    {later : Container other} {change change' : Option CapacityChange}
    (hfirst : first.remove = .ok (item, after, change))
    (hsecond : second.remove = .ok (counterpart, later, change')) :
    Abreast after later ∧ change = change' := by
  obtain ⟨-, hcapacity, hchange⟩ := of_remove_eq_ok hfirst
  obtain ⟨-, hcapacity', hchange'⟩ := of_remove_eq_ok hsecond
  have hsize : after.size = later.size := by
    have hsizes := h.size_eq
    rw [size_of_remove hlawful hfirst, size_of_remove hother hsecond] at hsizes
    exact Nat.succ.inj hsizes
  constructor
  · refine ⟨hsize, ?_⟩
    rw [hcapacity, hcapacity', h.capacity_eq, hsize]
  · rw [hchange, hchange', h.capacity_eq, hsize]

/-- Requests of the same kind get the same reply from both, apart from the items. -/
theorem Abreast.serve (hlawful : discipline.Lawful) (hother : other.Lawful)
    (h : Abreast first second) {request : Request α} {counterpart : Request β}
    (hkind : request.outline = counterpart.outline) :
    Abreast (first.serve request).1 (second.serve counterpart).1 ∧
      (first.serve request).2.outline = (second.serve counterpart).2.outline := by
  cases request with
  | insert item =>
    cases counterpart with
    | remove => cases hkind
    | insert counterpart =>
      have hafter := h.insert hlawful hother item counterpart
      rw [serve_insert, serve_insert, h.change_insert item counterpart, hafter.size_eq,
        hafter.capacity_eq]
      exact ⟨hafter, rfl⟩
  | remove =>
    cases counterpart with
    | insert counterpart => cases hkind
    | remove =>
      by_cases hempty : first.stored = 0
      · have hempty' : second.stored = 0 := h.stored_eq_zero_iff.1 hempty
        rw [serve_remove_of_error (remove_of_stored_eq_zero hlawful hempty),
          serve_remove_of_error (remove_of_stored_eq_zero hother hempty'), h.size_eq,
          h.capacity_eq]
        exact ⟨h, rfl⟩
      · have hempty' : second.stored ≠ 0 := h.stored_eq_zero_iff.not.1 hempty
        obtain ⟨item, after, change, hfirst⟩ := exists_remove hlawful hempty
        obtain ⟨counterpart, later, change', hsecond⟩ := exists_remove hother hempty'
        obtain ⟨hafter, rfl⟩ := h.of_remove hlawful hother hfirst hsecond
        rw [serve_remove_of_ok hfirst, serve_remove_of_ok hsecond, hafter.size_eq,
          hafter.capacity_eq]
        exact ⟨hafter, rfl⟩

theorem Abreast.run (hlawful : discipline.Lawful) (hother : other.Lawful)
    (h : Abreast first second) {requests : List (Request α)} {counterparts : List (Request β)}
    (hkinds : requests.map Request.outline = counterparts.map Request.outline) :
    Abreast (first.run requests).1 (second.run counterparts).1 ∧
      (first.run requests).2.map Reply.outline =
        (second.run counterparts).2.map Reply.outline := by
  induction requests generalizing first second counterparts with
  | nil =>
    obtain rfl := List.map_eq_nil_iff.1 hkinds.symm
    exact ⟨h, rfl⟩
  | cons request requests ih =>
    cases counterparts with
    | nil => cases hkinds
    | cons counterpart counterparts =>
      obtain ⟨hkind, hrest⟩ := List.cons.inj hkinds
      obtain ⟨hserved, hreply⟩ := h.serve hlawful hother hkind
      obtain ⟨hfinal, hreplies⟩ := ih hserved hrest
      exact ⟨hfinal, congrArg₂ List.cons hreply hreplies⟩

/-- Stacks and heaps cannot be told apart by what they show beside their items. -/
theorem outline_independent_of_items
    (hkind : discipline = .lifo α ∨ ∃ higher, discipline = .priority higher)
    (hother : other = .lifo β ∨ ∃ higher, other = .priority higher) (initial : Nat) :
    (initial = 0 → ofInitial discipline initial = .error (.invalidCapacity 0) ∧
      ofInitial other initial = .error (.invalidCapacity 0)) ∧
    (0 < initial → ∃ first second, ofInitial discipline initial = .ok first ∧
      ofInitial other initial = .ok second ∧
      ∀ (requests : List (Request α)) (counterparts : List (Request β)),
        requests.map Request.outline = counterparts.map Request.outline →
        (first.run requests).2.map Reply.outline =
            (second.run counterparts).2.map Reply.outline ∧
          (first.run requests).1.size = (second.run counterparts).1.size ∧
          (first.run requests).1.capacity = (second.run counterparts).1.capacity ∧
          (first.run requests).1.isEmpty = (second.run counterparts).1.isEmpty) := by
  constructor
  · rintro rfl
    exact ⟨rfl, rfl⟩
  · intro hpos
    let first : Container discipline := ⟨#[], ⟨initial, initial⟩⟩
    let second : Container other := ⟨#[], ⟨initial, initial⟩⟩
    have hstart : Abreast first second := ⟨rfl, rfl⟩
    refine ⟨first, second, ofInitial_of_pos discipline hpos, ofInitial_of_pos other hpos, ?_⟩
    intro requests counterparts hkinds
    obtain ⟨hfinal, hreplies⟩ := hstart.run (Discipline.lawful_of_kind hkind)
      (Discipline.lawful_of_kind hother) hkinds
    exact ⟨hreplies, hfinal.size_eq, hfinal.capacity_eq, hfinal.isEmpty_eq⟩

theorem outlines_of_overdrawn_containers :
    ∃ (stack : Stack Nat) (heap : Heap Priority.smallestPresentFirst),
      ofInitial (.lifo Nat) 1 = .ok stack ∧
      ofInitial (.priority Priority.smallestPresentFirst) 1 = .ok heap ∧
      let pushes : List (Request Nat) :=
        [.insert 7, .insert 7, .insert 7, .remove, .remove, .remove, .remove]
      let inserts : List (Request (Option Int)) :=
        [.insert (some 2), .insert none, .insert (some 1), .remove, .remove, .remove, .remove]
      (stack.run pushes).2.map Reply.outline = (heap.run inserts).2.map Reply.outline ∧
        (stack.run pushes).1.capacity = (heap.run inserts).1.capacity := by
  obtain ⟨-, hrun⟩ := outline_independent_of_items (.inl (Eq.refl (Discipline.lifo Nat)))
    (.inr ⟨Priority.smallestPresentFirst, rfl⟩) 1
  obtain ⟨stack, heap, hstack, hheap, hsame⟩ := hrun Nat.one_pos
  refine ⟨stack, heap, hstack, hheap, ?_⟩
  obtain ⟨hreplies, -, hcapacity, -⟩ := hsame
    [.insert 7, .insert 7, .insert 7, .remove, .remove, .remove, .remove]
    [.insert (some 2), .insert none, .insert (some 1), .remove, .remove, .remove, .remove] rfl
  exact ⟨hreplies, hcapacity⟩

end Container

end Keyspace
