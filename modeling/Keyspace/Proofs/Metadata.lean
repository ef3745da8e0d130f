import Keyspace.Metadata

namespace Keyspace.Metadata

theorem mem_names_iff (metadata : Metadata) (name : String) :
    name ∈ metadata.names ↔ metadata.contains name = true := by
  rw [contains, get?, List.lookup_isSome_iff, names, List.mem_map]
  constructor
  · intro h
    obtain ⟨entry, hentry, rfl⟩ := h
    exact ⟨entry, hentry, BEq.rfl⟩
  · intro h
    obtain ⟨entry, hentry, hname⟩ := h
    exact ⟨entry, hentry, (eq_of_beq hname).symm⟩

theorem mem_names_iff_exists_get? (metadata : Metadata) (name : String) :
    name ∈ metadata.names ↔ ∃ text, metadata.get? name = some text := by
  rw [mem_names_iff, contains, Option.isSome_iff_exists]

theorem lookup_cons_eq_ite (name text other : String) (entries : List (String × String)) :
    List.lookup other ((name, text) :: entries) =
      if other = name then some text else entries.lookup other := by
  rw [List.lookup_cons]
  by_cases h : other = name
  · rw [if_pos h, beq_iff_eq.2 h]
  · rw [if_neg h, beq_false_of_ne h]

theorem lookup_write (name text other : String) (entries : List (String × String)) :
    (write name text entries).lookup other =
      if other = name then some text else entries.lookup other := by
  induction entries with
  | nil => exact lookup_cons_eq_ite name text other []
  | cons entry entries ih =>
    obtain ⟨first, old⟩ := entry
    rw [write]
    by_cases hfirst : first = name
    · subst first
      rw [if_pos rfl, lookup_cons_eq_ite, lookup_cons_eq_ite]
      by_cases h : other = name
      · rw [if_pos h, if_pos h]
      · rw [if_neg h, if_neg h, if_neg h]
    · rw [if_neg hfirst, lookup_cons_eq_ite, lookup_cons_eq_ite, ih]
      by_cases h : other = first
      · subst other
        rw [if_pos rfl, if_neg hfirst, if_pos rfl]
      · rw [if_neg h, if_neg h]

theorem map_fst_write (name text : String) (entries : List (String × String)) :
    (write name text entries).map (·.1) =
      if name ∈ entries.map (·.1) then entries.map (·.1) else entries.map (·.1) ++ [name] := by
  induction entries with
  | nil => simp [write]
  | cons entry entries ih =>
    obtain ⟨first, old⟩ := entry
    rw [write]
    by_cases hfirst : first = name
    · subst first
      simp
    · rw [if_neg hfirst, List.map_cons, List.map_cons, ih]
      by_cases hmem : name ∈ entries.map (·.1)
      · rw [if_pos hmem, if_pos (List.mem_cons_of_mem _ hmem)]
      · have hcons : name ∉ first :: entries.map (·.1) :=
          List.not_mem_cons_of_ne_of_not_mem (Ne.symm hfirst) hmem
        rw [if_neg hmem, if_neg hcons, List.cons_append]

theorem lookup_eq_some_iff_mem {name text : String} {entries : List (String × String)}
    (h : (entries.map (·.1)).Nodup) :
    entries.lookup name = some text ↔ (name, text) ∈ entries := by
  induction entries with
  | nil => simp
  | cons entry entries ih =>
    obtain ⟨first, old⟩ := entry
    obtain ⟨hfirst, hrest⟩ := List.nodup_cons.1 h
    rw [lookup_cons_eq_ite, List.mem_cons, Prod.mk.injEq]
    by_cases hname : name = first
    · subst name
      have hnot : (first, text) ∉ entries := fun hmem =>
        hfirst (List.mem_map.2 ⟨(first, text), hmem, rfl⟩)
      simp [hnot, eq_comm]
    · simp [hname, ih hrest]

theorem get?_set (metadata : Metadata) (name text other : String) :
    (metadata.set name text).get? other =
      if other = name then some text else metadata.get? other :=
  lookup_write name text other metadata.entries

theorem lookup_filter_ne (name other : String) (entries : List (String × String)) :
    (entries.filter (·.1 ≠ name)).lookup other =
      if other = name then none else entries.lookup other := by
  induction entries with
  | nil => simp
  | cons entry entries ih =>
    obtain ⟨first, old⟩ := entry
    rw [lookup_cons_eq_ite]
    by_cases hfirst : first = name
    · subst first
      rw [List.filter_cons_of_neg (by simp), ih]
      by_cases h : other = name
      · rw [if_pos h, if_pos h]
      · rw [if_neg h, if_neg h, if_neg h]
    · rw [List.filter_cons_of_pos (by simpa using hfirst), lookup_cons_eq_ite, ih]
      by_cases h : other = first
      · subst other
        rw [if_pos rfl, if_neg hfirst, if_pos rfl]
      · rw [if_neg h, if_neg h]

theorem get?_erase (metadata : Metadata) (name other : String) :
    (metadata.erase name).get? other = if other = name then none else metadata.get? other :=
  lookup_filter_ne name other metadata.entries

theorem get?_setIfMissing_of_ne (metadata : Metadata) {name other : String} (h : other ≠ name)
    (text : String) : (metadata.setIfMissing name text).get? other = metadata.get? other := by
  rw [setIfMissing]
  split
  · rfl
  · rw [get?_set, if_neg h]

theorem write_of_not_mem {name : String} {entries : List (String × String)}
    (h : name ∉ entries.map (·.1)) (text : String) :
    write name text entries = entries ++ [(name, text)] := by
  induction entries with
  | nil => rfl
  | cons entry entries ih =>
    rw [List.map_cons, List.mem_cons, not_or] at h
    rw [write, if_neg (Ne.symm h.1), ih h.2, List.cons_append]

theorem write_of_mem {name : String} {entries : List (String × String)}
    (hnodup : (entries.map (·.1)).Nodup) (h : name ∈ entries.map (·.1)) (text : String) :
    write name text entries =
      entries.map fun entry => if entry.1 = name then (name, text) else entry := by
  induction entries with
  | nil => exact absurd h List.not_mem_nil
  | cons entry entries ih =>
    obtain ⟨first, old⟩ := entry
    obtain ⟨hfirst, hrest⟩ := List.nodup_cons.1 hnodup
    rw [write, List.map_cons]
    by_cases hname : first = name
    · subst first
      have hothers : ∀ entry ∈ entries,
          (if entry.1 = name then (name, text) else entry) = entry := by
        intro entry hentry
        apply if_neg
        rintro rfl
        exact hfirst (List.mem_map.2 ⟨entry, hentry, rfl⟩)
      rw [if_pos rfl, if_pos rfl, List.map_congr_left hothers, List.map_id']
    · have htail : name ∈ entries.map (·.1) := List.mem_of_ne_of_mem (Ne.symm hname) h
      rw [if_neg hname, if_neg hname, ih hrest htail]

theorem entries_set_of_not_mem {metadata : Metadata} {name : String} (h : name ∉ metadata.names)
    (text : String) : (metadata.set name text).entries = metadata.entries ++ [(name, text)] :=
  write_of_not_mem h text

theorem names_set (metadata : Metadata) (name text : String) :
    (metadata.set name text).names =
      if name ∈ metadata.names then metadata.names else metadata.names ++ [name] :=
  map_fst_write name text metadata.entries

theorem names_erase (metadata : Metadata) (name : String) :
    (metadata.erase name).names = metadata.names.filter (· ≠ name) := by
  rw [erase, names, names, List.filter_map]
  rfl

theorem contains_set (metadata : Metadata) (name text other : String) :
    (metadata.set name text).contains other = (other == name || metadata.contains other) := by
  rw [contains, get?_set, contains]
  by_cases h : other = name <;> simp [h]

theorem contains_setIfMissing (metadata : Metadata) (name text : String) :
    (metadata.setIfMissing name text).contains name = true := by
  rw [setIfMissing]
  split
  · assumption
  · rw [contains_set, beq_self_eq_true, Bool.true_or]

theorem contains_erase (metadata : Metadata) (name other : String) :
    (metadata.erase name).contains other = (other != name && metadata.contains other) := by
  rw [Bool.eq_iff_iff, ← mem_names_iff, names_erase, Bool.and_eq_true, ← mem_names_iff]
  simp [and_comm]

theorem contains_erase_self (metadata : Metadata) (name : String) :
    (metadata.erase name).contains name = false := by
  rw [contains_erase, bne_self_eq_false, Bool.false_and]

theorem contains_foldl_set (metadata : Metadata) (entries : List (String × String))
    (name : String) :
    (entries.foldl (fun metadata entry => metadata.set entry.1 entry.2) metadata).contains name =
        true ↔ metadata.contains name = true ∨ ∃ text, (name, text) ∈ entries := by
  induction entries generalizing metadata with
  | nil => simp
  | cons entry entries ih =>
    obtain ⟨first, old⟩ := entry
    rw [List.foldl_cons, ih, contains_set, Bool.or_eq_true, beq_iff_eq]
    simp only [List.mem_cons, Prod.mk.injEq, exists_or, exists_and_left, exists_eq, and_true]
    rw [or_assoc, or_left_comm]

structure WellNamed (metadata : Metadata) : Prop where
  nonempty : "" ∉ metadata.names
  nodup : metadata.names.Nodup

theorem WellNamed.get?_eq_some_iff {metadata : Metadata} (h : metadata.WellNamed)
    {name text : String} : metadata.get? name = some text ↔ (name, text) ∈ metadata.entries :=
  lookup_eq_some_iff_mem h.nodup

theorem WellNamed.entries_set_of_mem {metadata : Metadata} (h : metadata.WellNamed) {name : String}
    (hname : name ∈ metadata.names) (text : String) :
    (metadata.set name text).entries =
      metadata.entries.map fun entry => if entry.1 = name then (name, text) else entry :=
  write_of_mem h.nodup hname text

theorem wellNamed_empty : WellNamed {} :=
  ⟨List.not_mem_nil, List.nodup_nil⟩

theorem WellNamed.set {metadata : Metadata} (h : metadata.WellNamed) {name : String}
    (hname : name ≠ "") (text : String) : (metadata.set name text).WellNamed := by
  by_cases hmem : name ∈ metadata.names
  · have hnames : (metadata.set name text).names = metadata.names := by
      rw [names_set, if_pos hmem]
    exact ⟨hnames ▸ h.nonempty, hnames ▸ h.nodup⟩
  · have hnames : (metadata.set name text).names = metadata.names ++ [name] := by
      rw [names_set, if_neg hmem]
    constructor
    · rw [hnames, List.mem_append, List.mem_singleton]
      rintro (hempty | hempty)
      · exact h.nonempty hempty
      · exact hname hempty.symm
    · rw [hnames, List.nodup_append]
      refine ⟨h.nodup, List.pairwise_singleton _ name, ?_⟩
      rintro other hother last hlast rfl
      cases List.mem_singleton.1 hlast
      exact hmem hother

theorem WellNamed.setIfMissing {metadata : Metadata} (h : metadata.WellNamed) {name : String}
    (hname : name ≠ "") (text : String) : (metadata.setIfMissing name text).WellNamed := by
  rw [Metadata.setIfMissing]
  split
  · exact h
  · exact h.set hname text

theorem WellNamed.erase {metadata : Metadata} (h : metadata.WellNamed) (name : String) :
    (metadata.erase name).WellNamed := by
  constructor
  · rw [names_erase]
    intro hempty
    exact h.nonempty (List.mem_filter.1 hempty).1
  · rw [names_erase]
    exact h.nodup.filter _

end Keyspace.Metadata
