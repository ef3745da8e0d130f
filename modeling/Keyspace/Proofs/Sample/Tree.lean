import Keyspace.Proofs.Sample.Descendants

namespace Keyspace.Sample

variable {label : String} {base : Name} {fanout depth : Nat} {keys : List Key}

section Relation

variable (hbase : base.Reachable)
include hbase

/-- One key of the tree is below another one when its path goes on from the other's. -/
theorem deeper_descendantName_iff (hroot : base.escaped ≠ "/") {path other : List Nat}
    {below : List String} :
    (descendantName label base path).Deeper (descendantName label base other) below ↔
      ∃ rest, other = path ++ rest ∧ below = rest.map (childName label) := by
  have hcancel : (descendantName label base path).Deeper (descendantName label base other) below ↔
      other.map (childName label) = path.map (childName label) ++ below := by
    have hpath : (descendantName label base path).escaped ≠ "/" := fun hbare =>
      hroot ((escaped_descendantName_eq_separator_iff hbase).1 hbare).1
    rw [Name.Deeper, and_iff_right hpath]
    change base.segments ++ _ = base.segments ++ _ ++ below ↔ _
    rw [List.append_assoc, List.append_cancel_left_eq]
  rw [hcancel]
  constructor
  · intro hmap
    obtain ⟨first, rest, hother, hfirst, hrest⟩ := List.map_eq_append_iff.1 hmap
    have hpath := List.map_injective_iff.2 (childName_injective label) hfirst
    exact ⟨rest, hpath ▸ hother, hrest.symm⟩
  · rintro ⟨rest, rfl, rfl⟩
    exact List.map_append

theorem relation_descendant_eq_same_iff {path other : List Nat} :
    (descendant label base path).relation (descendant label base other) = .same ↔
      path = other := by
  rw [Key.relation_of_names rfl rfl, Name.relation_eq_same_iff]
  exact (nameText_descendant_injective hbase label).eq_iff

theorem relation_descendant_eq_directChild_iff (hroot : base.escaped ≠ "/")
    {path other : List Nat} :
    (descendant label base path).relation (descendant label base other) = .directChild ↔
      ∃ i, other = path ++ [i] := by
  rw [Key.relation_of_names rfl rfl, Name.relation_eq_directChild_iff,
    (descendantName_reachable hbase label path).hasDirectlyBelow_iff
      (descendantName_reachable hbase label other)]
  simp only [deeper_descendantName_iff hbase hroot]
  constructor
  · rintro ⟨segment, rest, hother, hsegment⟩
    obtain ⟨i, rfl, -⟩ := List.map_eq_singleton_iff.1 hsegment.symm
    exact ⟨i, hother⟩
  · rintro ⟨i, hother⟩
    exact ⟨_, [i], hother, rfl⟩

theorem relation_to_child_eq_directChild_iff (hroot : base.escaped ≠ "/")
    {path other : List Nat} {i : Nat} :
    (descendant label base other).relation (descendant label base (path ++ [i])) =
      .directChild ↔ other = path := by
  rw [relation_descendant_eq_directChild_iff hbase hroot]
  constructor
  · rintro ⟨j, hchild⟩
    exact (List.append_inj_left' hchild rfl).symm
  · rintro rfl
    exact ⟨i, rfl⟩

theorem relation_descendant_eq_descendant_iff (hroot : base.escaped ≠ "/")
    {path other : List Nat} :
    (descendant label base path).relation (descendant label base other) = .descendant ↔
      ∃ rest, 2 ≤ rest.length ∧ other = path ++ rest := by
  rw [Key.relation_of_names rfl rfl,
    (descendantName_reachable hbase label path).relation_eq_descendant_iff
      (descendantName_reachable hbase label other)]
  simp only [deeper_descendantName_iff hbase hroot]
  constructor
  · rintro ⟨below, hlength, rest, hother, rfl⟩
    exact ⟨rest, by simpa using hlength, hother⟩
  · rintro ⟨rest, hlength, hother⟩
    exact ⟨_, by simpa using hlength, rest, hother, rfl⟩

end Relation

/-- The list holds each key of the complete tree below a base once. -/
structure IsCompleteTree (label : String) (base : Name) (depth fanout : Nat) (keys : List Key) :
    Prop where
  length_eq : keys.length = ∑ level ∈ Finset.range (depth + 1), fanout ^ level
  named : ∀ key ∈ keys, ∃ name : Name, name.Reachable ∧ key = { name := some name }
  distinct : (keys.map Key.nameText).Nodup
  mem_segments_iff : ∀ segments, segments ∈ keys.map Key.segments ↔
    ∃ path : List Nat, path.length ≤ depth ∧ (∀ i ∈ path, i < fanout) ∧
      segments = base.segments ++ path.map (childName label)

/-- The list holds the root, so many children of it, and one parent of every other key. -/
structure IsFamily (root : Key) (width : Nat) (keys : List Key) : Prop where
  same : keys.countP (root.relation · = .same) = 1
  children : keys.countP (root.relation · = .directChild) = width
  below : ∀ key ∈ keys, root.relation key = .same ∨ root.relation key = .directChild ∨
    root.relation key = .descendant
  parent : ∀ key ∈ keys, root.relation key ≠ .same →
    keys.countP (·.relation key = .directChild) = 1

theorem IsCompleteTree.of_perm (hbase : base.Reachable)
    (h : keys.Perm ((paths fanout depth).map (descendant label base))) :
    IsCompleteTree label base depth fanout keys where
  length_eq := by
    rw [h.length_eq, List.length_map, length_paths]
  named := by
    intro key hkey
    obtain ⟨path, -, rfl⟩ := List.mem_map.1 (h.subset hkey)
    exact ⟨_, descendantName_reachable hbase label path, rfl⟩
  distinct := by
    rw [(h.map Key.nameText).nodup_iff, List.map_map]
    exact (nodup_paths fanout depth).map (nameText_descendant_injective hbase label)
  mem_segments_iff := by
    intro segments
    rw [(h.map Key.segments).mem_iff, List.map_map, List.mem_map]
    constructor
    · intro hsegments
      obtain ⟨path, hpath, rfl⟩ := hsegments
      obtain ⟨hlength, hbound⟩ := mem_paths_iff.1 hpath
      exact ⟨path, hlength, hbound, rfl⟩
    · intro hsegments
      obtain ⟨path, hlength, hbound, rfl⟩ := hsegments
      exact ⟨path, mem_paths_iff.2 ⟨hlength, hbound⟩, rfl⟩

theorem countP_of_perm (h : keys.Perm ((paths fanout depth).map (descendant label base)))
    {ofKey : Key → Prop} {ofPath : List Nat → Prop} [DecidablePred ofKey] [DecidablePred ofPath]
    (hiff : ∀ path, ofKey (descendant label base path) ↔ ofPath path) :
    keys.countP (fun key => ofKey key) = (paths fanout depth).countP (fun path => ofPath path) := by
  rw [h.countP_eq, List.countP_map]
  apply List.countP_congr
  intro path _
  simp [hiff path]

theorem IsFamily.of_perm (hbase : base.Reachable) (hroot : base.escaped ≠ "/")
    (h : keys.Perm ((paths fanout depth).map (descendant label base))) :
    IsFamily { name := some base } (if depth = 0 then 0 else fanout) keys := by
  rw [← descendant_nil hbase label]
  constructor
  case same =>
    have hself (path : List Nat) :
        (descendant label base []).relation (descendant label base path) = .same ↔
          path.length = 0 := by
      rw [relation_descendant_eq_same_iff hbase, List.length_eq_zero_iff, eq_comm]
    rw [countP_of_perm h hself]
    exact countP_length_paths (Nat.zero_le depth)
  case children =>
    have hchild (path : List Nat) :
        (descendant label base []).relation (descendant label base path) = .directChild ↔
          path.length = 1 := by
      rw [relation_descendant_eq_directChild_iff hbase hroot, List.length_eq_one_iff]
      rfl
    rw [countP_of_perm h hchild]
    split
    · rename_i hdepth
      subst hdepth
      rfl
    · rename_i hdepth
      rw [countP_length_paths (Nat.one_le_iff_ne_zero.2 hdepth), pow_one]
  case below =>
    intro key hkey
    obtain ⟨path, -, rfl⟩ := List.mem_map.1 (h.subset hkey)
    rw [relation_descendant_eq_same_iff hbase,
      relation_descendant_eq_directChild_iff hbase hroot,
      relation_descendant_eq_descendant_iff hbase hroot]
    match path with
    | [] => exact .inl rfl
    | [i] => exact .inr (.inl ⟨i, rfl⟩)
    | i :: j :: path => exact .inr (.inr ⟨i :: j :: path, by simp, rfl⟩)
  case parent =>
    intro key hkey hother
    obtain ⟨path, hpath, rfl⟩ := List.mem_map.1 (h.subset hkey)
    rw [Ne, relation_descendant_eq_same_iff hbase, eq_comm] at hother
    obtain ⟨above, i, rfl⟩ := (List.eq_nil_or_concat' path).resolve_left hother
    rw [countP_of_perm h fun _ => relation_to_child_eq_directChild_iff hbase hroot]
    have hcount := List.count_eq_one_of_mem (nodup_paths fanout depth) (mem_paths_of_append hpath)
    simpa only [List.count_eq_countP, beq_eq_decide] using hcount

/-- Either way of growing a tree lists every key of the complete tree once. -/
theorem trees_are_complete (root : String) (depth fanout : Nat) :
    (∀ base, Name.parse root = .ok base →
      ∃ sorted preorder,
        (sortedTree root depth fanout).outcome = .ok sorted ∧
        IsCompleteTree "n" base depth fanout sorted ∧
        (preorderTree root depth fanout).outcome = .ok preorder ∧
        IsCompleteTree "c" base depth fanout preorder ∧
        (base.escaped ≠ "/" →
          IsFamily { name := some base } (if depth = 0 then 0 else fanout) sorted ∧
          IsFamily { name := some base } (if depth = 0 then 0 else fanout) preorder)) ∧
    (∀ error, (sortedTree root depth fanout).outcome = .error error ↔
      ∃ cause, Name.parse root = .error cause ∧ error = .fixtureName root cause) ∧
    (∀ error, (preorderTree root depth fanout).outcome = .error error ↔
      Name.parse root = .error error) := by
  refine ⟨?_, fun _ => sortedTree_eq_error_iff, fun _ => preorderTree_eq_error_iff⟩
  intro base hparse
  have hbase : base.Reachable := .parse hparse
  obtain ⟨order, horder, hsorted⟩ := sortedTree_of_parse hparse depth fanout
  have hperm (le : Key → Key → Bool) :=
    (List.mergeSort_perm (order.map (descendant "n" base)) le).trans (horder.map _)
  refine ⟨_, _, hsorted, .of_perm hbase (hperm _), preorderTree_of_parse hparse depth fanout,
    .of_perm hbase (.refl _), ?_⟩
  intro hroot
  exact ⟨.of_perm hbase hroot (hperm _), .of_perm hbase hroot (.refl _)⟩

theorem trees_below_detour :
    let base : Name := ⟨"user/sw", ["user", "sw"]⟩
    Name.parse "user/./sw" = .ok base ∧
      (∃ sorted preorder,
        (sortedTree "user/./sw" 2 11).outcome = .ok sorted ∧ sorted.length = 133 ∧
        (preorderTree "user/./sw" 2 11).outcome = .ok preorder ∧ preorder.length = 133 ∧
        IsFamily { name := some base } 11 sorted ∧ IsFamily { name := some base } 11 preorder) ∧
      (sortedTree ".." 2 11).outcome =
        .error (.fixtureName ".." (.invalidName ".." .relativeRoot)) := by
  intro base
  have hparse : Name.parse "user/./sw" = .ok base := by decide +kernel
  have hrefused : Name.parse ".." = .error (.invalidName ".." .relativeRoot) := by decide +kernel
  obtain ⟨htrees, -, -⟩ := trees_are_complete "user/./sw" 2 11
  obtain ⟨sorted, preorder, hsorted, hcomplete, hpreorder, hother, hfamily⟩ := htrees base hparse
  obtain ⟨hsortedFamily, hpreorderFamily⟩ := hfamily (by decide)
  obtain ⟨-, herror, -⟩ := trees_are_complete ".." 2 11
  have hsize : ∑ level ∈ Finset.range (2 + 1), 11 ^ level = 133 := by decide
  refine ⟨hparse, ⟨sorted, preorder, hsorted, hcomplete.length_eq.trans hsize, hpreorder,
    hother.length_eq.trans hsize, hsortedFamily, hpreorderFamily⟩, ?_⟩
  exact (herror _).2 ⟨_, hrefused, rfl⟩

end Keyspace.Sample
