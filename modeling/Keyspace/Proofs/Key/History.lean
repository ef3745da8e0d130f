import Mathlib.Data.List.Induction
import Keyspace.Proofs.Key.Coherence
import Keyspace.Proofs.Key.Sync

namespace Keyspace

namespace Edit

/-- The change writes the text to the name, as bytes do where the marker is missing. -/
inductive Writes (key : Key) : Edit → String → String → Prop
  | metadata {name text : String} (h : name ≠ "") : Writes key (.setMetadata name text) name text
  | owner {owner : String} : Writes key (.setOwner owner) "owner" owner
  | comment {comment : String} : Writes key (.setComment comment) "comment" comment
  | marker {content : List UInt8} (h : "binary" ∉ key.metadata.names) :
    Writes key (.setBinary content) "binary" ""

inductive Removes (key : Key) : Edit → String → Prop
  | marker {content : String} (h : '\x00' ∉ content.toList) :
    Removes key (.setText content) "binary"
  | metadata {name : String} {changed : Key}
    (h : (key.apply (.removeMetadata name)).outcome = .ok changed) :
    Removes key (.removeMetadata name) name

variable {key : Key} {change : Edit} {name other text otherText : String}

theorem Writes.unique (h : change.Writes key name text)
    (hother : change.Writes key other otherText) : name = other ∧ text = otherText := by
  cases h with
  | metadata | owner | comment | marker =>
    cases hother
    exact ⟨rfl, rfl⟩

theorem Writes.metadata_after (h : change.Writes key name text) :
    (key.after change).metadata = key.metadata.set name text := by
  cases h with
  | metadata hname =>
    have hset : (key.apply (.setMetadata name text)).outcome = .ok _ :=
      Key.setMetadata_eq_ok_iff.2 ⟨hname, rfl⟩
    rw [Key.after_of_ok hset]
    split
    · rfl
    · rfl
  | owner => rfl
  | comment => rfl
  | marker hmissing => exact if_neg (mt (Metadata.mem_names_iff _ _).2 hmissing)

theorem Removes.metadata_after (h : change.Removes key name) :
    (key.after change).metadata = key.metadata.erase name := by
  cases h with
  | marker hzero =>
    rename_i content
    have hset : (key.apply (.setText content)).outcome = .ok _ :=
      Key.setText_eq_ok_iff.2 ⟨hzero, rfl⟩
    rw [Key.after_of_ok hset]
    rfl
  | metadata hremoved =>
    rw [Key.after_of_ok hremoved]
    obtain ⟨-, ⟨decoded, -, -, -, rfl⟩ | ⟨-, rfl⟩⟩ :=
      Key.removeMetadata_eq_ok (Key.apply_removeMetadata_eq_ok hremoved)
    · rfl
    · rfl

theorem metadata_after_of_neither (hwrites : ∀ name text, ¬change.Writes key name text)
    (hremoves : ∀ name, ¬change.Removes key name) :
    (key.after change).metadata = key.metadata := by
  cases houtcome : (key.apply change).outcome with
  | error error => rw [Key.after_of_error houtcome]
  | ok changed =>
    rw [Key.after_of_ok houtcome]
    cases change with
    | setName text =>
      obtain ⟨read, -, rfl⟩ := Key.setName_eq_ok_iff.1 houtcome
      rfl
    | addBaseName segment =>
      obtain ⟨base, joined, -, -, rfl⟩ := Key.addBaseName_eq_ok_iff.1 houtcome
      rfl
    | setText content =>
      obtain ⟨hzero, -⟩ := Key.setText_eq_ok_iff.1 houtcome
      exact absurd (.marker hzero) (hremoves "binary")
    | setBinary content =>
      cases houtcome
      -- without the marker the bytes would write it
      have hmarked : key.metadata.contains "binary" = true := by
        rw [← Metadata.mem_names_iff]
        by_contra hmissing
        exact hwrites "binary" "" (.marker hmissing)
      exact if_pos hmarked
    | setMetadata name text =>
      obtain ⟨hname, -⟩ := Key.setMetadata_eq_ok_iff.1 houtcome
      exact absurd (.metadata hname) (hwrites name text)
    | removeMetadata name => exact absurd (.metadata houtcome) (hremoves name)
    | setOwner owner => exact absurd .owner (hwrites "owner" owner)
    | setComment comment => exact absurd .comment (hwrites "comment" comment)
    | clearValue | setPermissions permissions | setUid uid | setGid gid | setMode mode
    | clearSync =>
      cases houtcome
      rfl

end Edit

namespace Key

open InPlace (edit run runAll)

/-- What a change makes of the metadata of a key. -/
structure MetadataStep (key : Key) (change : Edit) (changed : Metadata) : Prop where
  appended : ∀ name text, change.Writes key name text → name ∉ key.metadata.names →
    changed.entries = key.metadata.entries ++ [(name, text)]
  overwritten : ∀ name text, change.Writes key name text → name ∈ key.metadata.names →
    changed.entries =
      key.metadata.entries.map fun entry => if entry.1 = name then (name, text) else entry
  removed : ∀ name, change.Removes key name →
    changed.entries = key.metadata.entries.filter (·.1 ≠ name)
  kept : (∀ name text, ¬change.Writes key name text) → (∀ name, ¬change.Removes key name) →
    changed = key.metadata

/-- The key after the first changes, as many as are counted. -/
def keyAt (key : Key) (edits : List Edit) (count : Nat) : Key :=
  (runAll { key } (edits.take count)).key

/-- From this count of changes on the name is there, and one change earlier it was not. -/
structure PresentSince (key : Key) (edits : List Edit) (name : String) (count : Nat) : Prop where
  bound : count ≤ edits.length
  arrived : ∀ earlier, count = earlier + 1 → name ∉ (keyAt key edits earlier).metadata.names
  stayed : ∀ later, count ≤ later → later ≤ edits.length →
    name ∈ (keyAt key edits later).metadata.names

/-- The first name came in earlier, or both were there before the first change, in this order. -/
def Precedes (key : Key) (edits : List Edit) (first second : String) : Prop :=
  ∃ i j, PresentSince key edits first i ∧ PresentSince key edits second j ∧
    (i < j ∨ i = 0 ∧ j = 0 ∧ [first, second].Sublist key.metadata.names)

def WritesAt (key : Key) (edits : List Edit) (name text : String) (index : Nat) : Prop :=
  ∃ change, edits[index]? = some change ∧ change.Writes (keyAt key edits index) name text

/-- The text is what the name was last written since that count, or what it always had. -/
inductive TextSince (key : Key) (edits : List Edit) (name text : String) : Nat → Prop
  | written {count index : Nat} (h : WritesAt key edits name text index)
    (hsince : count ≤ index + 1)
    (hlast : ∀ later other, index < later → ¬WritesAt key edits name other later) :
    TextSince key edits name text count
  | original (h : key.metadata.get? name = some text)
    (hnever : ∀ index other, ¬WritesAt key edits name other index) :
    TextSince key edits name text 0

variable {key : Key} {edits : List Edit} {change : Edit} {name text first second : String}
  {count index : Nat}

theorem metadataStep_after (h : key.metadata.WellNamed) (change : Edit) :
    key.MetadataStep change (key.after change).metadata := by
  constructor
  · intro name text hwrites hnew
    rw [hwrites.metadata_after, Metadata.entries_set_of_not_mem hnew]
  · intro name text hwrites hheld
    rw [hwrites.metadata_after, h.entries_set_of_mem hheld]
  · intro name hremoves
    rw [hremoves.metadata_after]
    rfl
  · exact Edit.metadata_after_of_neither

theorem metadata_after_cases (key : Key) (change : Edit) :
    (∃ name text, change.Writes key name text ∧
      (key.after change).metadata = key.metadata.set name text) ∨
    (∀ name text, ¬change.Writes key name text) ∧
      ((∃ name, (key.after change).metadata = key.metadata.erase name) ∨
        (key.after change).metadata = key.metadata) := by
  by_cases hwrites : ∃ name text, change.Writes key name text
  · obtain ⟨name, text, hwrites⟩ := hwrites
    exact .inl ⟨name, text, hwrites, hwrites.metadata_after⟩
  · simp only [not_exists] at hwrites
    by_cases hremoves : ∃ name, change.Removes key name
    · obtain ⟨name, hremoves⟩ := hremoves
      exact .inr ⟨hwrites, .inl ⟨name, hremoves.metadata_after⟩⟩
    · simp only [not_exists] at hremoves
      exact .inr ⟨hwrites, .inr (Edit.metadata_after_of_neither hwrites hremoves)⟩

theorem names_after (key : Key) (change : Edit) :
    (key.after change).metadata.names.Sublist key.metadata.names ∨
      ∃ name, name ∉ key.metadata.names ∧
        (key.after change).metadata.names = key.metadata.names ++ [name] := by
  obtain ⟨name, text, -, hset⟩ | ⟨-, ⟨name, herased⟩ | hkept⟩ := metadata_after_cases key change
  · rw [hset, Metadata.names_set]
    by_cases hheld : name ∈ key.metadata.names
    · rw [if_pos hheld]
      exact .inl (List.Sublist.refl _)
    · rw [if_neg hheld]
      exact .inr ⟨name, hheld, rfl⟩
  · rw [herased, Metadata.names_erase]
    exact .inl List.filter_sublist
  · rw [hkept]
    exact .inl (List.Sublist.refl _)

theorem writes_or_kept (h : (key.after change).metadata.get? name = some text) :
    change.Writes key name text ∨
      (∀ other, ¬change.Writes key name other) ∧ key.metadata.get? name = some text := by
  obtain ⟨target, written, hwrites, hset⟩ | ⟨hunwritten, ⟨target, herased⟩ | hkept⟩ :=
    metadata_after_cases key change
  · rw [hset, Metadata.get?_set] at h
    by_cases hname : name = target
    · subst hname
      rw [if_pos rfl] at h
      obtain rfl := Option.some.inj h
      exact .inl hwrites
    · rw [if_neg hname] at h
      exact .inr ⟨fun other hother => hname (hother.unique hwrites).1, h⟩
  · rw [herased, Metadata.get?_erase] at h
    split at h
    · cases h
    · exact .inr ⟨hunwritten name, h⟩
  · rw [hkept] at h
    exact .inr ⟨hunwritten name, h⟩

theorem runAll_append_singleton (key : Key) (edits : List Edit) (change : Edit) :
    (runAll { key } (edits ++ [change])).key = (runAll { key } edits).key.after change := by
  rw [InPlace.runAll_append]
  exact InPlace.key_run_edit change _

theorem keyAt_length (key : Key) (edits : List Edit) :
    keyAt key edits edits.length = (runAll { key } edits).key := by
  rw [keyAt, List.take_length]

theorem keyAt_append (h : count ≤ edits.length) (later : List Edit) :
    keyAt key (edits ++ later) count = keyAt key edits count := by
  rw [keyAt, List.take_append_of_le_length h, keyAt]

theorem writesAt_append_iff (h : index < edits.length) :
    WritesAt key (edits ++ [change]) name text index ↔ WritesAt key edits name text index := by
  rw [WritesAt, WritesAt, List.getElem?_append_left h, keyAt_append (Nat.le_of_lt h)]

theorem writesAt_length_iff :
    WritesAt key (edits ++ [change]) name text edits.length ↔
      change.Writes (runAll { key } edits).key name text := by
  rw [WritesAt, List.getElem?_concat_length, keyAt_append (Nat.le_refl _), keyAt_length]
  simp

theorem WritesAt.lt_length (h : WritesAt key edits name text index) : index < edits.length := by
  obtain ⟨change, hindex, -⟩ := h
  exact (List.getElem?_eq_some_iff.1 hindex).1

theorem not_writesAt_append (hwrites : ∀ other, ¬WritesAt key edits name other index)
    (hlast : ∀ other, ¬change.Writes (runAll { key } edits).key name other) (other : String) :
    ¬WritesAt key (edits ++ [change]) name other index := by
  intro h
  have hindex := h.lt_length
  rw [List.length_append, List.length_singleton, Nat.lt_succ_iff] at hindex
  obtain hearlier | rfl := Nat.lt_or_eq_of_le hindex
  · exact hwrites other ((writesAt_append_iff hearlier).1 h)
  · exact hlast other (writesAt_length_iff.1 h)

theorem TextSince.append (h : TextSince key edits name text count)
    (hlast : ∀ other, ¬change.Writes (runAll { key } edits).key name other) :
    TextSince key (edits ++ [change]) name text count := by
  cases h with
  | written hwrite hsince hafter =>
    apply TextSince.written ((writesAt_append_iff hwrite.lt_length).2 hwrite) hsince
    intro later other hlater
    exact not_writesAt_append (fun other => hafter later other hlater) hlast other
  | original htext hnever =>
    apply TextSince.original htext
    intro index other
    exact not_writesAt_append (hnever index) hlast other

theorem TextSince.of_writes (h : change.Writes (runAll { key } edits).key name text)
    (hcount : count ≤ edits.length + 1) : TextSince key (edits ++ [change]) name text count := by
  apply TextSince.written (writesAt_length_iff.2 h) hcount
  intro later other hlater hwrite
  have hbound := hwrite.lt_length
  rw [List.length_append, List.length_singleton] at hbound
  omega

theorem PresentSince.count_le {other : Nat} (h : PresentSince key edits name count)
    (hother : PresentSince key edits name other) : count ≤ other := by
  cases count with
  | zero => exact Nat.zero_le other
  | succ earlier =>
    apply Nat.lt_of_not_le
    intro hle
    exact h.arrived earlier rfl (hother.stayed earlier hle (Nat.le_of_succ_le h.bound))

theorem PresentSince.unique {other : Nat} (h : PresentSince key edits name count)
    (hother : PresentSince key edits name other) : count = other :=
  Nat.le_antisymm (h.count_le hother) (hother.count_le h)

theorem presentSince_zero (h : name ∈ key.metadata.names) : PresentSince key [] name 0 where
  bound := Nat.le_refl 0
  arrived := fun _ hcount => nomatch hcount
  stayed := by
    intro later _ _
    rw [keyAt, List.take_nil]
    exact h

theorem PresentSince.append (h : PresentSince key edits name count)
    (hheld : name ∈ ((runAll { key } edits).key.after change).metadata.names) :
    PresentSince key (edits ++ [change]) name count where
  bound := by
    rw [List.length_append]
    exact Nat.le_add_right_of_le h.bound
  arrived := by
    intro earlier hcount
    have hbound := h.bound
    rw [keyAt_append (by omega)]
    exact h.arrived earlier hcount
  stayed := by
    intro later hlater hbound
    obtain hold | rfl := Nat.lt_or_eq_of_le hbound
    · rw [List.length_append, List.length_singleton, Nat.lt_succ_iff] at hold
      rw [keyAt_append hold]
      exact h.stayed later hlater hold
    · rw [keyAt_length, runAll_append_singleton]
      exact hheld

theorem presentSince_append_of_new (hnew : name ∉ (runAll { key } edits).key.metadata.names)
    (hheld : name ∈ ((runAll { key } edits).key.after change).metadata.names) :
    PresentSince key (edits ++ [change]) name (edits.length + 1) where
  bound := by
    have hlength : (edits ++ [change]).length = edits.length + 1 := List.length_append
    exact Nat.le_of_eq hlength.symm
  arrived := by
    intro earlier hcount
    obtain rfl := Nat.succ.inj hcount
    rw [keyAt_append (Nat.le_refl _), keyAt_length]
    exact hnew
  stayed := by
    intro later hlater hbound
    rw [← List.length_singleton (a := change), ← List.length_append] at hlater
    obtain rfl := Nat.le_antisymm hbound hlater
    rw [keyAt_length, runAll_append_singleton]
    exact hheld

/-- A name that is there came in at some change and has the text of the last write since then. -/
theorem exists_since (h : (runAll { key } edits).key.metadata.get? name = some text) :
    ∃ since, PresentSince key edits name since ∧ TextSince key edits name text since := by
  -- the text before the last change need not be the one after it, only the name is the same
  induction edits using List.reverseRecOn generalizing text with
  | nil =>
    have hheld : name ∈ key.metadata.names := (Metadata.mem_names_iff_exists_get? _ _).2 ⟨text, h⟩
    have hnever : ∀ index other, ¬WritesAt key [] name other index :=
      fun index other hwrite => Nat.not_lt_zero index hwrite.lt_length
    exact ⟨0, presentSince_zero hheld, .original h hnever⟩
  | append_singleton edits change ih =>
    rw [runAll_append_singleton] at h
    have hheld : name ∈ ((runAll { key } edits).key.after change).metadata.names :=
      (Metadata.mem_names_iff_exists_get? _ _).2 ⟨text, h⟩
    obtain hwrites | ⟨hunwritten, hkept⟩ := writes_or_kept h
    · by_cases hold : name ∈ (runAll { key } edits).key.metadata.names
      · obtain ⟨old, hget⟩ := (Metadata.mem_names_iff_exists_get? _ _).1 hold
        obtain ⟨since, hpresent, -⟩ := ih hget
        exact ⟨since, hpresent.append hheld, .of_writes hwrites (Nat.le_succ_of_le hpresent.bound)⟩
      · exact ⟨edits.length + 1, presentSince_append_of_new hold hheld,
          .of_writes hwrites (Nat.le_refl _)⟩
    · obtain ⟨since, hpresent, htext⟩ := ih hkept
      exact ⟨since, hpresent.append hheld, htext.append hunwritten⟩

theorem Precedes.append (h : Precedes key edits first second)
    (hfirst : first ∈ ((runAll { key } edits).key.after change).metadata.names)
    (hsecond : second ∈ ((runAll { key } edits).key.after change).metadata.names) :
    Precedes key (edits ++ [change]) first second := by
  obtain ⟨i, j, hi, hj, horder⟩ := h
  exact ⟨i, j, hi.append hfirst, hj.append hsecond, horder⟩

theorem pairwise_precedes (key : Key) (edits : List Edit) :
    (runAll { key } edits).key.metadata.names.Pairwise (Precedes key edits) := by
  induction edits using List.reverseRecOn with
  | nil =>
    apply List.pairwise_iff_forall_sublist.2
    intro first second hsublist
    have hfirst : first ∈ key.metadata.names := hsublist.subset List.mem_cons_self
    have hsecond : second ∈ key.metadata.names := hsublist.subset (by simp)
    exact ⟨0, 0, presentSince_zero hfirst, presentSince_zero hsecond, .inr ⟨rfl, rfl, hsublist⟩⟩
  | append_singleton edits change ih =>
    rw [runAll_append_singleton]
    obtain hsublist | ⟨name, hnew, hnames⟩ := names_after (runAll { key } edits).key change
    · apply (ih.sublist hsublist).imp_of_mem
      intro first second hfirst hsecond horder
      exact horder.append hfirst hsecond
    · have hheld : ∀ other, other ∈ (runAll { key } edits).key.metadata.names ∨ other = name →
          other ∈ ((runAll { key } edits).key.after change).metadata.names := by
        intro other hother
        rw [hnames, List.mem_append, List.mem_singleton]
        exact hother
      rw [hnames, List.pairwise_append]
      refine ⟨?_, List.pairwise_singleton _ name, ?_⟩
      · apply ih.imp_of_mem
        intro first second hfirst hsecond horder
        exact horder.append (hheld first (.inl hfirst)) (hheld second (.inl hsecond))
      · -- the new name comes in at the last change, and every other one came in before that
        intro first hfirst last hlast
        obtain rfl := List.mem_singleton.1 hlast
        obtain ⟨text, hget⟩ := (Metadata.mem_names_iff_exists_get? _ _).1 hfirst
        obtain ⟨since, hpresent, -⟩ := exists_since hget
        exact ⟨since, edits.length + 1, hpresent.append (hheld first (.inl hfirst)),
          presentSince_append_of_new hnew (hheld last (.inr rfl)),
          .inl (Nat.lt_succ_of_le hpresent.bound)⟩

theorem of_run_removeMetadata {removed : Option String} {holder after : Holder}
    (h : run (InPlace.removeMetadata name) holder = (.ok removed, after)) :
    removed = holder.key.metadata.get? name ∧
      after.key.metadata = holder.key.metadata.erase name := by
  rw [InPlace.run_removeMetadata] at h
  cases houtcome : (holder.key.removeMetadata name).outcome with
  | ok result =>
    rw [houtcome] at h
    cases h
    obtain ⟨hremoved, ⟨decoded, -, -, -, hafter⟩ | ⟨-, hafter⟩⟩ := removeMetadata_eq_ok houtcome
    · rw [hafter]
      exact ⟨hremoved, rfl⟩
    · rw [hafter]
      exact ⟨hremoved, rfl⟩
  | error error =>
    rw [houtcome] at h
    cases h

/-- Names are listed in the order in which they last came in, with the last texts since then. -/
theorem Reachable.metadata_tells_history (h : key.Reachable) (edits : List Edit) :
    let final := (runAll { key } edits).key.metadata
    (final.names.Nodup ∧
      ∀ name text, final.get? name = some text ↔ (name, text) ∈ final.entries) ∧
    final.names.Pairwise (Precedes key edits) ∧
    (∀ name text, final.get? name = some text →
      ∃ since, PresentSince key edits name since ∧ TextSince key edits name text since ∧
        ∀ other, PresentSince key edits name other → other = since) ∧
    (∀ change outcome after, run (edit change) { key } = (outcome, after) →
      key.MetadataStep change after.key.metadata ∧
        ∀ error, outcome = .error error → after.key.metadata = key.metadata) ∧
    ∀ name removed after, run (InPlace.removeMetadata name) { key } = (.ok removed, after) →
      removed = key.metadata.get? name ∧
        after.key.metadata.entries = key.metadata.entries.filter (·.1 ≠ name) := by
  intro final
  have hkey : key.metadata.WellNamed := h.coherent.wellNamed
  have hfinal : final.WellNamed := by
    have hheld : final = (key.afterAll edits).metadata :=
      congrArg Key.metadata (InPlace.key_runAll { key } edits)
    rw [hheld]
    exact (h.afterAll edits).coherent.wellNamed
  refine ⟨⟨hfinal.nodup, fun name text => hfinal.get?_eq_some_iff⟩, pairwise_precedes key edits,
    ?_, ?_, ?_⟩
  · intro name text hget
    obtain ⟨since, hpresent, htext⟩ := exists_since hget
    exact ⟨since, hpresent, htext, fun other hother => hother.unique hpresent⟩
  · intro change outcome after hrun
    have hafter : after.key = key.after change := by
      rw [← InPlace.key_run_edit change { key }, hrun]
    constructor
    · rw [hafter]
      exact metadataStep_after hkey change
    · rintro error rfl
      rw [InPlace.eq_of_run_edit hrun]
  · intro name removed after hrun
    obtain ⟨hremoved, hafter⟩ := of_run_removeMetadata hrun
    exact ⟨hremoved, congrArg Metadata.entries hafter⟩

theorem metadata_of_rewritten_names :
    let key := nameless.afterAll [.setMetadata "b" "1", .setMetadata "a" "2", .setComment "c"]
    let edits : List Edit :=
      [.setMetadata "b" "3", .setBinary [0], .removeMetadata "a", .setOwner "me",
        .removeMetadata "binary", .setMetadata "a" "4", .setText "\x00", .setMetadata "" "5",
        .clearValue, .setBinary []]
    let final := (runAll { key } edits).key.metadata
    key.Reachable ∧
      final.entries =
        [("b", "3"), ("comment", "c"), ("binary", ""), ("owner", "me"), ("a", "4")] ∧
      Precedes key edits "b" "comment" ∧ Precedes key edits "binary" "a" ∧
      (∃ since, PresentSince key edits "b" since ∧ TextSince key edits "b" "3" since) ∧
      ∃ since, PresentSince key edits "a" since ∧ TextSince key edits "a" "4" since := by
  intro key edits final
  have hkey : key.Reachable := (Reachable.fresh .nameless).afterAll _
  obtain ⟨⟨-, hfound⟩, horder, hsince, -⟩ := hkey.metadata_tells_history edits
  have hentries : final.entries =
      [("b", "3"), ("comment", "c"), ("binary", ""), ("owner", "me"), ("a", "4")] := by
    decide +kernel
  have hnames : final.names = ["b", "comment", "binary", "owner", "a"] := by
    rw [Metadata.names, hentries]
    rfl
  have hprecedes : ∀ first second, [first, second].Sublist final.names →
      Precedes key edits first second :=
    fun _ _ hsublist => List.pairwise_iff_forall_sublist.1 horder hsublist
  have htext : ∀ name text, (name, text) ∈ final.entries →
      ∃ since, PresentSince key edits name since ∧ TextSince key edits name text since := by
    intro name text hentry
    obtain ⟨since, hpresent, hwritten, -⟩ := hsince name text ((hfound name text).2 hentry)
    exact ⟨since, hpresent, hwritten⟩
  rw [hnames] at hprecedes
  rw [hentries] at htext
  exact ⟨hkey, hentries, hprecedes "b" "comment" (by decide), hprecedes "binary" "a" (by decide),
    htext "b" "3" (by decide), htext "a" "4" (by decide)⟩

end Key

end Keyspace
