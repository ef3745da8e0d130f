import Keyspace.Proofs.Sample.Descendants
import Keyspace.Proofs.Text.Order

namespace Keyspace.Sample

def digits (i : Nat) : List UInt8 :=
  Text.utf8 (toString i)

/-- The first path is the smaller one in the order of the digits of its numbers. -/
def Earlier (path other : List Nat) : Prop :=
  path.map digits < other.map digits

variable {path other rest : List Nat} {before behind order : List (List Nat)}

theorem digits_eq_encode (i : Nat) : digits i = Text.encode (Nat.toDigits 10 i) := by
  rw [digits, Text.utf8_eq_encode, Nat.toString_eq_repr, Nat.toList_repr]

theorem digits_injective : Function.Injective digits := by
  intro i j h
  apply childName_injective ""
  rw [childName, childName, Text.utf8_injective h]

theorem digits_ne_nil (i : Nat) : digits i ≠ [] := by
  intro hnil
  apply (isLevel_childName "" i).1
  apply Text.utf8_injective
  rw [childName, Text.utf8_append]
  exact congrArg (Text.utf8 "" ++ ·) hnil

theorem separator_lt_of_mem_digits {i : Nat} {b : UInt8} (h : b ∈ digits i) :
    separator.toUInt8 < b := by
  rw [digits_eq_encode, Text.encode, List.mem_flatMap] at h
  obtain ⟨c, hc, hb⟩ := h
  have hdigit := Nat.isDigit_of_mem_toDigits (by decide) (Nat.le_refl 10) hc
  obtain ⟨hlow, hhigh⟩ : 48 ≤ c.toNat ∧ c.toNat ≤ 57 := Char.isDigit_iff_toNat.1 hdigit
  rw [Text.encodeChar_of_ascii (by omega), List.mem_singleton] at hb
  have hbyte : c.toUInt8.toNat = c.toNat :=
    Nat.mod_eq_of_lt (Nat.lt_of_le_of_lt hhigh (by decide))
  have hseparator : separator.toUInt8.toNat = 47 := rfl
  rw [hb, UInt8.lt_iff_toNat_lt, hbyte, hseparator]
  omega

namespace Earlier

theorem asymm (h : Earlier path other) : ¬Earlier other path :=
  List.lt_asymm h

theorem or_eq_or_earlier (path other : List Nat) :
    Earlier path other ∨ path = other ∨ Earlier other path := by
  rcases Std.lt_trichotomy (path.map digits) (other.map digits) with h | h | h
  · exact .inl h
  · exact .inr (.inl (List.map_injective_iff.2 digits_injective h))
  · exact .inr (.inr h)

theorem ne (h : Earlier path other) : path ≠ other := by
  rintro rfl
  exact h.asymm h

theorem of_isPrefix (h : path <+: other) (hne : path ≠ other) : Earlier path other := by
  obtain ⟨rest, rfl⟩ := h
  have hrest : rest ≠ [] := by
    rintro rfl
    exact hne (List.append_nil path).symm
  rw [Earlier, List.map_append]
  exact Text.lt_append_of_ne_nil _ fun hnil => hrest (List.map_eq_nil_iff.1 hnil)

theorem append (h : Earlier path other) (hbegins : ¬path <+: other) (rest : List Nat) :
    Earlier (path ++ rest) other := by
  rw [Earlier, List.map_append]
  apply Text.append_lt_of_not_isPrefix h
  rwa [List.prefix_map_iff_of_injective digits_injective]

end Earlier

/-- With at most ten children each, the numbers of the children are in order too. -/
theorem pairwise_earlier_paths {fanout : Nat} (h : fanout ≤ 10) (depth : Nat) :
    (paths fanout depth).Pairwise Earlier := by
  have hdigits : (List.range 10).Pairwise fun i j => digits i < digits j := by decide +kernel
  induction depth with
  | zero => exact List.pairwise_singleton _ _
  | succ depth ih =>
    rw [paths, List.pairwise_cons, List.pairwise_flatMap]
    refine ⟨?_, ?_, ?_⟩
    · intro path hpath
      obtain ⟨i, -, hpath⟩ := List.mem_flatMap.1 hpath
      obtain ⟨rest, -, rfl⟩ := List.mem_map.1 hpath
      exact List.nil_lt_cons _ _
    · intro i _
      rw [List.pairwise_map]
      exact ih.imp fun hearlier => List.cons_lt_cons_iff.2 (.inr ⟨rfl, hearlier⟩)
    · apply (hdigits.sublist (List.range_sublist.2 h)).imp
      intro i j hij path hpath other hother
      obtain ⟨rest, -, rfl⟩ := List.mem_map.1 hpath
      obtain ⟨others, -, rfl⟩ := List.mem_map.1 hother
      exact List.cons_lt_cons_iff.2 (.inl hij)

/-- The eleventh child comes before the third. -/
example : digits 10 < digits 2 := by decide +kernel

section Split

variable (hsorted : (before ++ path :: behind).Pairwise Earlier)
include hsorted

theorem mem_behind_of_earlier (hmem : other ∈ before ++ path :: behind) (h : Earlier path other) :
    other ∈ behind := by
  rcases List.mem_append.1 hmem with hbefore | hbehind
  · have hpath := (List.pairwise_append.1 hsorted).2.2 other hbefore path List.mem_cons_self
    exact (h.asymm hpath).elim
  · exact (List.mem_cons.1 hbehind).resolve_left h.ne.symm

theorem mem_before_of_earlier (hmem : other ∈ before ++ path :: behind) (h : Earlier other path) :
    other ∈ before := by
  rcases List.mem_append.1 hmem with hbefore | hbehind
  · exact hbefore
  · rcases List.mem_cons.1 hbehind with rfl | hbehind
    · exact (h.ne rfl).elim
    · have hpath := (List.pairwise_append.1 hsorted).2.1
      exact (h.asymm (List.rel_of_pairwise_cons hpath hbehind)).elim

end Split

theorem exists_block (hpath : ∀ other ∈ behind, Earlier path other)
    (hsorted : behind.Pairwise Earlier) :
    ∃ block rest, behind = block ++ rest ∧ (∀ other ∈ block, path <+: other) ∧
      ∀ other ∈ rest, ¬path <+: other := by
  induction behind with
  | nil => exact ⟨[], [], rfl, by simp, by simp⟩
  | cons first behind ih =>
    obtain ⟨hfirst, hrest⟩ := List.forall_mem_cons.1 hpath
    by_cases hbegins : path <+: first
    · obtain ⟨block, rest, rfl, hblock, hnot⟩ := ih hrest hsorted.of_cons
      exact ⟨first :: block, rest, rfl, List.forall_mem_cons.2 ⟨hbegins, hblock⟩, hnot⟩
    · refine ⟨[], first :: behind, rfl, by simp, List.forall_mem_cons.2 ⟨hbegins, ?_⟩⟩
      -- a path that goes on from the given one would stand in front of this one
      rintro _ hother ⟨rest, rfl⟩
      exact (List.rel_of_pairwise_cons hsorted hother).asymm (hfirst.append hbegins rest)

theorem exists_block_behind (hsorted : (before ++ path :: behind).Pairwise Earlier) :
    ∃ block rest, behind = block ++ rest ∧ ∀ other, other ∈ block ↔
      other ∈ before ++ path :: behind ∧ path <+: other ∧ path ≠ other := by
  have hbehind := (List.pairwise_append.1 hsorted).2.1
  obtain ⟨block, rest, rfl, hblock, hrest⟩ :=
    exists_block (fun other => List.rel_of_pairwise_cons hbehind) hbehind.of_cons
  refine ⟨block, rest, rfl, fun other => ⟨?inside, ?found⟩⟩
  case inside =>
    intro hother
    have hmem := List.mem_append_left rest hother
    have hearlier : Earlier path other := List.rel_of_pairwise_cons hbehind hmem
    exact ⟨List.mem_append_right before (List.mem_cons_of_mem path hmem), hblock other hother,
      hearlier.ne⟩
  case found =>
    rintro ⟨hother, hbegins, hne⟩
    have hmem := mem_behind_of_earlier hsorted hother (.of_isPrefix hbegins hne)
    exact (List.mem_append.1 hmem).resolve_right fun hbad => hrest other hbad hbegins

theorem parent_mem_before {fanout depth i : Nat}
    (hperm : (before ++ (path ++ [i]) :: behind).Perm (paths fanout depth))
    (hsorted : (before ++ (path ++ [i]) :: behind).Pairwise Earlier) : path ∈ before := by
  have hmem : path ∈ before ++ (path ++ [i]) :: behind := by
    rw [hperm.mem_iff]
    apply mem_paths_of_append
    rw [← hperm.mem_iff]
    exact List.mem_append_right before List.mem_cons_self
  have hearlier : Earlier path (path ++ [i]) :=
    .of_isPrefix (List.prefix_append path [i]) (by simp)
  exact mem_before_of_earlier hsorted hmem hearlier

/-- The bytes that a path adds to the name it starts from. -/
def trail (label : String) (path : List Nat) : List UInt8 :=
  path.flatMap fun i => separator.toUInt8 :: (Text.utf8 (escapeText label) ++ digits i)

theorem head_trail (label : String) (path : List Nat) :
    ∀ b ∈ (trail label path).head?, b = separator.toUInt8 := by
  cases path with
  | nil => simp [trail]
  | cons i path => simp [trail]

/-- Only digits tell two trails apart, and no digit is as small as a separator. -/
theorem trail_lt (h : Earlier path other) (label : String) :
    trail label path < trail label other := by
  induction path generalizing other with
  | nil =>
    cases other with
    | nil => exact (h.ne rfl).elim
    | cons j other => exact List.nil_lt_cons _ _
  | cons i path ih =>
    cases other with
    | nil => exact (List.not_lt_nil _ h).elim
    | cons j other =>
      simp only [trail, List.flatMap_cons, List.cons_append, List.append_assoc]
      apply List.cons_lt_cons_iff.2
      refine .inr ⟨rfl, List.append_left_lt ?_⟩
      rcases List.cons_lt_cons_iff.1 h with hij | ⟨hij, hrest⟩
      · exact Text.append_lt_append_of_mark hij (fun b hb => separator_lt_of_mem_digits hb)
          (head_trail label path) _
      · rw [hij]
        exact List.append_left_lt (ih hrest)

theorem encode_escapeSegment_childName (label : String) (i : Nat) :
    Text.encode (escapeSegment (childName label i).toList) =
      Text.utf8 (escapeText label) ++ digits i := by
  have hplain : escapeSegment (Nat.toDigits 10 i) = Nat.toDigits 10 i := by
    apply escapeSegment_of_plain
    intro c hc
    have hdigit := Nat.isDigit_of_mem_toDigits (by decide) (Nat.le_refl 10) hc
    rw [isReserved, Bool.or_eq_false_iff, beq_eq_false_iff_ne, beq_eq_false_iff_ne]
    constructor
    · rintro rfl
      exact absurd hdigit (by decide)
    · rintro rfl
      exact absurd hdigit (by decide)
  rw [toList_childName, escapeSegment_append, hplain, Text.encode_append, ← digits_eq_encode,
    Text.utf8_eq_encode, Name.toList_escapeText]

theorem encode_path (label : String) (path : List Nat) :
    Text.encode (((path.map (childName label)).map String.toList).flatMap fun raw =>
      separator :: escapeSegment raw) = trail label path := by
  have hseparator : String.utf8EncodeChar separator = [separator.toUInt8] :=
    Levels.encodeChar_of_reserved (by decide)
  induction path with
  | nil => rfl
  | cons i path ih =>
    simp only [List.map_cons, List.flatMap_cons, Text.encode_append, Text.encode_cons, hseparator,
      encode_escapeSegment_childName, ih]
    rfl

/-- The bytes in front of the first separator that a path adds. -/
def stem (base : Name) : List UInt8 :=
  Text.encode (Piece.spell base.root.toList (base.segments.tail.map String.toList))

section Base

variable {base : Name} (hbase : base.Reachable)
include hbase

theorem utf8_nameText_descendant {path : List Nat} (h : base.escaped ≠ "/" ∨ path ≠ [])
    (label : String) :
    Text.utf8 (descendant label base path).nameText = stem base ++ trail label path := by
  obtain ⟨first, more, hcons⟩ := hbase.isCanonical.1.eq_cons
  have hne : first :: (more ++ path.map (childName label)) ≠ [""] := by
    intro hbare
    rw [← List.cons_append, ← hcons] at hbare
    have hseparator := (descendantName_reachable hbase label path).escaped_eq_separator_iff.2 hbare
    obtain ⟨hroot, hpath⟩ := (escaped_descendantName_eq_separator_iff hbase).1 hseparator
    rcases h with h | h
    · exact h hroot
    · exact h hpath
  have htext : (descendant label base path).nameText =
      String.ofList (Piece.spell first.toList
        ((more ++ path.map (childName label)).map String.toList)) := by
    rw [← Name.render_cons hne, ← List.cons_append, ← hcons]
    rfl
  have hspell (below : List (List Char)) (others : List (List Char)) :
      Piece.spell first.toList (below ++ others) = Piece.spell first.toList below ++
        others.flatMap fun raw => separator :: escapeSegment raw := by
    simp [Piece.spell]
  rw [htext, Text.utf8_eq_encode, String.toList_ofList, List.map_append, hspell,
    Text.encode_append, encode_path, stem, Name.root, hcons]
  rfl

theorem utf8_bare_lt (hbare : base.escaped = "/") {path : List Nat} (h : path ≠ [])
    (label : String) :
    Text.utf8 (descendant label base []).nameText <
      Text.utf8 (descendant label base path).nameText := by
  have htop : (descendant label base []).nameText = "/" :=
    (escaped_descendantName_eq_separator_iff hbase).2 ⟨hbare, rfl⟩
  have hstem : stem base = [] := by
    rw [stem, Name.root, hbase.escaped_eq_separator_iff.1 hbare]
    rfl
  obtain ⟨i, rest, rfl⟩ := List.exists_cons_of_ne_nil h
  have hmore : Text.utf8 (escapeText label) ++ digits i ++ trail label rest ≠ [] := by
    simp [digits_ne_nil]
  rw [utf8_nameText_descendant hbase (.inr h) label, htop, hstem]
  exact Text.lt_append_of_ne_nil [separator.toUInt8] hmore

theorem nameBefore_of_earlier {path other : List Nat} (h : Earlier path other) (label : String) :
    (descendant label base path).nameBefore (descendant label base other) = true := by
  have hother : other ≠ [] := by
    rintro rfl
    exact List.not_lt_nil _ h
  rw [Key.nameBefore, Text.before, decide_eq_true_iff]
  by_cases hstart : base.escaped ≠ "/" ∨ path ≠ []
  · rw [utf8_nameText_descendant hbase hstart label,
      utf8_nameText_descendant hbase (.inr hother) label]
    exact List.append_left_lt (trail_lt h label)
  · obtain ⟨hbare, hnil⟩ := not_or.1 hstart
    obtain rfl := not_not.1 hnil
    exact utf8_bare_lt hbase (not_not.1 hbare) hother label

theorem earlier_of_not_nameBefore {path other : List Nat} {label : String} (hne : path ≠ other)
    (h : (!(descendant label base other).nameBefore (descendant label base path)) = true) :
    Earlier path other := by
  rcases Earlier.or_eq_or_earlier path other with hearlier | hsame | hlater
  · exact hearlier
  · exact (hne hsame).elim
  · rw [nameBefore_of_earlier hbase hlater label] at h
    exact (Bool.false_ne_true h).elim

end Base

variable {label : String} {base : Name} {fanout depth : Nat}

theorem segments_descendant_prefix_iff :
    (descendant label base path).segments <+: (descendant label base other).segments ↔
      path <+: other := by
  rw [segments_descendant, segments_descendant, List.prefix_append_right_inj,
    List.prefix_map_iff_of_injective (childName_injective label)]

theorem exists_split {front back : List Key} {key : Key}
    (h : order.map (descendant label base) = front ++ key :: back) :
    ∃ before path behind, order = before ++ path :: behind ∧
      before.map (descendant label base) = front ∧ descendant label base path = key ∧
      behind.map (descendant label base) = back := by
  obtain ⟨before, others, rfl, hfront, hothers⟩ := List.map_eq_append_iff.1 h
  obtain ⟨path, behind, rfl, hkey, hback⟩ := List.map_eq_cons_iff.1 hothers
  exact ⟨before, path, behind, rfl, hfront, hkey, hback⟩

/-- The names ascend, with each key behind its parent and in front of all those below it. -/
structure IsNamePreorder (base : Name) (keys : List Key) : Prop where
  ascending : keys.Pairwise fun a b => a.nameBefore b = true
  parent_before : ∀ front key back, keys = front ++ key :: back →
    key.segments ≠ base.segments → ∃ parent ∈ front, parent.segments = key.segments.dropLast
  block_behind : ∀ front key back, keys = front ++ key :: back →
    ∃ block rest, back = block ++ rest ∧ ∀ other, other ∈ block ↔
      other ∈ keys ∧ key.segments <+: other.segments ∧ key.segments ≠ other.segments

theorem IsNamePreorder.of_order (hbase : base.Reachable) (label : String)
    (hperm : order.Perm (paths fanout depth)) (hsorted : order.Pairwise Earlier) :
    IsNamePreorder base (order.map (descendant label base)) where
  ascending := by
    rw [List.pairwise_map]
    exact hsorted.imp fun h => nameBefore_of_earlier hbase h label
  parent_before := by
    intro front key back hkeys hkey
    obtain ⟨before, path, behind, rfl, rfl, rfl, rfl⟩ := exists_split hkeys
    have hpath : path ≠ [] := by
      rintro rfl
      exact hkey (List.append_nil _)
    obtain ⟨above, i, rfl⟩ := (List.eq_nil_or_concat' path).resolve_left hpath
    refine ⟨descendant label base above,
      List.mem_map_of_mem (parent_mem_before hperm hsorted), ?_⟩
    rw [segments_descendant, segments_descendant, List.map_append, ← List.append_assoc]
    exact List.dropLast_concat.symm
  block_behind := by
    intro front key back hkeys
    obtain ⟨before, path, behind, rfl, rfl, rfl, rfl⟩ := exists_split hkeys
    obtain ⟨block, rest, rfl, hblock⟩ := exists_block_behind hsorted
    refine ⟨_, _, List.map_append, ?_⟩
    intro key
    constructor
    · intro hkey
      obtain ⟨other, hother, rfl⟩ := List.mem_map.1 hkey
      rw [segments_descendant_prefix_iff, Ne, segments_descendant_inj]
      obtain ⟨hmem, hbelow⟩ := (hblock other).1 hother
      exact ⟨List.mem_map_of_mem hmem, hbelow⟩
    · rintro ⟨hkey, hbelow⟩
      obtain ⟨other, hother, rfl⟩ := List.mem_map.1 hkey
      rw [segments_descendant_prefix_iff, Ne, segments_descendant_inj] at hbelow
      exact List.mem_map_of_mem ((hblock other).2 ⟨hother, hbelow⟩)

theorem sortedTree_ordered {root : String} (h : Name.parse root = .ok base) (depth fanout : Nat) :
    ∃ order : List (List Nat), order.Perm (paths fanout depth) ∧ order.Pairwise Earlier ∧
      (sortedTree root depth fanout).outcome = .ok (order.map (descendant "n" base)) := by
  obtain ⟨order, horder, htree⟩ := sortedTree_of_parse h depth fanout
  let le (path other : List Nat) : Bool :=
    !(descendant "n" base other).nameBefore (descendant "n" base path)
  have htrans (a b c : List Nat) (hab : le a b = true) (hbc : le b c = true) : le a c = true :=
    Text.not_before_trans hab hbc
  have htotal (a b : List Nat) : (le a b || le b a) = true :=
    Text.not_before_total _ _
  have hperm := (List.mergeSort_perm order le).trans horder
  have hsorted := List.pairwise_mergeSort htrans htotal order
  refine ⟨order.mergeSort le, hperm, ?_, ?_⟩
  · apply (hsorted.and (hperm.nodup_iff.2 (nodup_paths fanout depth))).imp
    rintro path other ⟨hle, hne⟩
    exact earlier_of_not_nameBefore (.parse h) hne hle
  · have hmap : (order.mergeSort le).map (descendant "n" base) =
        (order.map (descendant "n" base)).mergeSort fun a b => !b.nameBefore a :=
      List.map_mergeSort fun _ _ _ _ => rfl
    rw [htree, hmap]

/-- In the order of the bytes each key stands behind its parent and in front of all below it. -/
theorem sorted_tree_is_preorder {root : String} (h : Name.parse root = .ok base)
    (depth fanout : Nat) :
    ∃ keys, (sortedTree root depth fanout).outcome = .ok keys ∧ IsNamePreorder base keys ∧
      (fanout ≤ 10 → ∃ order : List (List Nat), keys = order.map (descendant "n" base) ∧
        (preorderTree root depth fanout).outcome = .ok (order.map (descendant "c" base))) := by
  obtain ⟨order, hperm, hsorted, htree⟩ := sortedTree_ordered h depth fanout
  refine ⟨_, htree, .of_order (.parse h) "n" hperm hsorted, ?_⟩
  intro hfanout
  have hsame : order = paths fanout depth :=
    hperm.eq_of_pairwise (fun a b _ _ hab hba => (hab.asymm hba).elim) hsorted
      (pairwise_earlier_paths hfanout depth)
  rw [hsame]
  exact ⟨_, rfl, preorderTree_of_parse h depth fanout⟩

theorem preorder_below_bare_root :
    let base : Name := ⟨"/", [""]⟩
    Name.parse "/./" = .ok base ∧ 10 ≤ 10 ∧
      ∃ keys, (sortedTree "/./" 2 10).outcome = .ok keys ∧ IsNamePreorder base keys ∧
        ∃ order : List (List Nat), keys = order.map (descendant "n" base) ∧
          (preorderTree "/./" 2 10).outcome = .ok (order.map (descendant "c" base)) := by
  intro base
  have hparse : Name.parse "/./" = .ok base := by decide +kernel
  obtain ⟨keys, hkeys, horder, hsame⟩ := sorted_tree_is_preorder hparse 2 10
  exact ⟨hparse, Nat.le_refl 10, keys, hkeys, horder, hsame (Nat.le_refl 10)⟩

end Keyspace.Sample
