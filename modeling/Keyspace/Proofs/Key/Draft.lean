import Keyspace.Proofs.Key.Reachable
import Keyspace.Proofs.Metadata

namespace Keyspace

def Value.marked : Value → Value
  | .text content => .binary (Text.utf8 content)
  | value => value

def Value.HoldsZero : Value → Prop
  | .text content => '\x00' ∈ content.toList
  | _ => False

instance : DecidablePred Value.HoldsZero
  | .text content => inferInstanceAs (Decidable ('\x00' ∈ content.toList))
  | .absent | .binary _ => inferInstanceAs (Decidable False)

theorem Value.bytes_marked (value : Value) : value.marked.bytes = value.bytes := by
  cases value <;> rfl

theorem Value.marked_marked (value : Value) : value.marked.marked = value.marked := by
  cases value <;> rfl

theorem Key.setMetadata_of_ne_empty (key : Key) {name : String} (h : name ≠ "") (text : String) :
    (key.setMetadata name text).outcome =
      .ok ((if name = Metadata.binaryMarker then { key with value := key.value.marked }
        else key).writeMetadata name text) := by
  refine setMetadata_eq_ok_iff.2 ⟨h, ?_⟩
  by_cases hmarker : name = Metadata.binaryMarker
  · obtain ⟨keyName, value, metadata, permissions, needsSync⟩ := key
    cases value <;> simp [hmarker, Value.marked, Value.isText, Value.bytes]
  · rw [if_neg hmarker, if_neg fun hboth => hmarker hboth.1]

namespace Draft

/-- The parts of a draft that do not mix. -/
inductive Group
  | value
  | metadata
  | permissions
  deriving DecidableEq, Repr

namespace Part

def group : Part → Group
  | .text _ | .binary _ => .value
  | .metadata _ _ | .owner _ | .comment _ => .metadata
  | .permissions _ => .permissions

def value? : Part → Option Value
  | .text content => some (.text content)
  | .binary content => some (.binary content)
  | _ => none

def entry? : Part → Option (String × String)
  | .metadata name content => some (name, content)
  | .owner name => some (Metadata.ownerName, name)
  | .comment note => some (Metadata.commentName, note)
  | _ => none

def permissions? : Part → Option Permissions
  | .permissions granted => some granted
  | _ => none

def edit : Part → Edit
  | .text content => .setText content
  | .binary content => .setBinary content
  | .metadata name content => .setMetadata name content
  | .owner name => .setOwner name
  | .comment note => .setComment note
  | .permissions granted => .setPermissions granted

variable {part : Part}

theorem value?_eq_none (h : part.group ≠ .value) : part.value? = none := by
  cases part with
  | text content | binary content => exact absurd rfl h
  | metadata name content | owner name | comment note | permissions granted => rfl

theorem entry?_eq_none (h : part.group ≠ .metadata) : part.entry? = none := by
  cases part with
  | metadata name content | owner name | comment note => exact absurd rfl h
  | text content | binary content | permissions granted => rfl

theorem permissions?_eq_none (h : part.group ≠ .permissions) : part.permissions? = none := by
  cases part with
  | permissions granted => exact absurd rfl h
  | text content | binary content | metadata name content | owner name | comment note => rfl

end Part

def lastValue? (parts : List Part) : Option Value :=
  (parts.filterMap Part.value?).getLast?

def entries (parts : List Part) : List (String × String) :=
  parts.filterMap Part.entry?

def lastPermissions? (parts : List Part) : Option Permissions :=
  (parts.filterMap Part.permissions?).getLast?

/-- Gives a key the parts one after the other, up to the first refusal. -/
def give (parts : List Part) (key : Key) : Attempt KeyError Key :=
  parts.foldlM (fun key part => key.apply part.edit) key

variable {draft : Draft} {name : Name} {parts others : List Part} {part : Part}

theorem foldl_add (draft : Draft) (parts : List Part) :
    parts.foldl add draft =
      { name := draft.name
        value := (lastValue? parts).getD draft.value
        metadata := draft.metadata ++ entries parts
        permissions := (lastPermissions? parts).getD draft.permissions } := by
  induction parts generalizing draft with
  | nil => simp [lastValue?, entries, lastPermissions?]
  | cons part parts ih =>
    rw [List.foldl_cons, ih]
    cases part <;> simp [add, addMetadata, lastValue?, entries, lastPermissions?, Part.value?,
      Part.entry?, Part.permissions?, List.filterMap_cons, List.getLast?_cons]

theorem ofParts_eq (text : String) (parts : List Part) :
    ofParts text parts =
      { name := text
        value := (lastValue? parts).getD .absent
        metadata := entries parts
        permissions := (lastPermissions? parts).getD {} } :=
  foldl_add { name := text } parts

theorem filterMap_congr_of_groups {β : Type} {group : Group} {f : Part → Option β}
    (hother : ∀ {part : Part}, part.group ≠ group → f part = none)
    (h : others.filter (·.group = group) = parts.filter (·.group = group)) :
    others.filterMap f = parts.filterMap f := by
  have honly (parts : List Part) :
      (parts.filter (·.group = group)).filterMap f = parts.filterMap f := by
    rw [List.filterMap_filter]
    congr 1
    funext part
    by_cases hgroup : part.group = group
    · rw [if_pos (decide_eq_true hgroup)]
    · rw [if_neg (by simpa using hgroup), hother hgroup]
  rw [← honly, h, honly]

theorem ofParts_congr_of_groups
    (h : ∀ group, others.filter (·.group = group) = parts.filter (·.group = group))
    (text : String) : ofParts text others = ofParts text parts := by
  have hvalue := filterMap_congr_of_groups Part.value?_eq_none (h .value)
  have hentry := filterMap_congr_of_groups Part.entry?_eq_none (h .metadata)
  have hpermissions := filterMap_congr_of_groups Part.permissions?_eq_none (h .permissions)
  rw [ofParts_eq, ofParts_eq, lastValue?, lastValue?, entries, entries, lastPermissions?,
    lastPermissions?, hvalue, hentry, hpermissions]

/-- The metadata of a key whose value was stored before anything else. -/
def firstMetadata : Value → Metadata
  | .binary _ => ⟨[(Metadata.binaryMarker, "")]⟩
  | _ => {}

/-- The key that a draft describes, under the name that was read. -/
def described (draft : Draft) (name : Name) : Key where
  name := some name
  value := draft.metadata.foldl
    (fun value entry => if entry.1 = Metadata.binaryMarker then value.marked else value) draft.value
  metadata := draft.metadata.foldl (fun metadata entry => metadata.set entry.1 entry.2)
    (firstMetadata draft.value)
  permissions := draft.permissions

/-- The draft holds nothing that a key refuses. -/
structure Sound (draft : Draft) : Prop where
  noZero : ¬draft.value.HoldsZero
  named : "" ∉ draft.metadata.map (·.1)

theorem described_addMetadata (draft : Draft) (name : Name) (entry text : String) :
    (draft.addMetadata entry text).described name =
      (if entry = Metadata.binaryMarker then
        { draft.described name with value := (draft.described name).value.marked }
      else draft.described name).writeMetadata entry text := by
  by_cases hmarker : entry = Metadata.binaryMarker
  · simp [described, addMetadata, Key.writeMetadata, Key.touched, hmarker]
  · simp [described, addMetadata, Key.writeMetadata, Key.touched, hmarker]

theorem outcome_setMetadata_described (draft : Draft) (name : Name) (entry text : String) :
    ((draft.described name).setMetadata entry text).outcome =
      if entry = "" then .error (.invalidName "" .emptyMetadataName)
      else .ok ((draft.addMetadata entry text).described name) := by
  split
  · rename_i hempty
    exact Key.setMetadata_eq_error_iff.2 ⟨hempty, rfl⟩
  · rename_i hnamed
    rw [Key.setMetadata_of_ne_empty _ hnamed, described_addMetadata]

theorem outcome_setText_described (h : draft.metadata = []) (name : Name) (content : String) :
    ((draft.described name).setText content).outcome =
      if '\x00' ∈ content.toList then .error .embeddedNul
      else .ok ({ draft with value := .text content }.described name) := by
  split
  · rename_i hzero
    exact Key.setText_eq_error_iff.2 ⟨hzero, rfl⟩
  · rename_i hzero
    refine Key.setText_eq_ok_iff.2 ⟨hzero, ?_⟩
    obtain ⟨text, value, metadata, permissions⟩ := draft
    obtain rfl : metadata = [] := h
    cases value <;> rfl

theorem setBinary_described (h : draft.metadata = []) (name : Name) (content : List UInt8) :
    (draft.described name).setBinary content =
      { draft with value := .binary content }.described name := by
  obtain ⟨text, value, metadata, permissions⟩ := draft
  obtain rfl : metadata = [] := h
  cases value <;> rfl

theorem outcome_storeValue_described (h : draft.metadata = []) (hvalue : draft.value = .absent)
    (name : Name) (value : Value) :
    (storeValue (draft.described name) value).outcome =
      if value.HoldsZero then .error .embeddedNul
      else .ok ({ draft with value }.described name) := by
  cases value with
  | absent =>
    obtain ⟨text, value, metadata, permissions⟩ := draft
    obtain rfl : value = .absent := hvalue
    rfl
  | text content => exact outcome_setText_described h name content
  | binary content =>
    rw [storeValue, setBinary_described h]
    rfl

theorem outcome_storeMetadata_described (draft : Draft) (name : Name)
    (entries : List (String × String)) :
    (storeMetadata (draft.described name) entries).outcome =
      if "" ∈ entries.map (·.1) then .error (.invalidName "" .emptyMetadataName)
      else .ok ({ draft with metadata := draft.metadata ++ entries }.described name) := by
  induction entries generalizing draft with
  | nil => simp [storeMetadata]
  | cons entry entries ih =>
    obtain ⟨entryName, text⟩ := entry
    have hfirst := outcome_setMetadata_described draft name entryName text
    rw [storeMetadata]
    by_cases hempty : entryName = ""
    · rw [if_pos hempty] at hfirst
      rw [Attempt.bind_of_error hfirst, if_pos (by simp [hempty])]
    · rw [if_neg hempty] at hfirst
      rw [Attempt.bind_of_ok hfirst]
      simp only [ih, addMetadata, List.append_assoc, List.singleton_append, List.map_cons,
        List.mem_cons, Ne.symm hempty, false_or]

/-- The name is read, then the value is looked at, then the entries of the metadata. -/
theorem outcome_build (draft : Draft) :
    draft.build.outcome =
      match Name.parse draft.name with
      | .error error => .error error
      | .ok name =>
        if draft.value.HoldsZero then .error .embeddedNul
        else if "" ∈ draft.metadata.map (·.1) then .error (.invalidName "" .emptyMetadataName)
        else .ok (draft.described name) := by
  rw [build]
  cases hname : Name.parse draft.name with
  | error error =>
    have hnamed : (Key.named draft.name).outcome = .error error := Key.setName_eq_error_iff.2 hname
    rw [Attempt.bind_of_error hnamed]
  | ok name =>
    let bare : Draft := { name := draft.name }
    have hnamed : (Key.named draft.name).outcome = .ok (bare.described name) :=
      Key.setName_eq_ok_iff.2 ⟨name, hname, rfl⟩
    have hempty : bare.metadata = [] := rfl
    have hvalue := outcome_storeValue_described hempty rfl name draft.value
    have hmetadata :=
      outcome_storeMetadata_described { bare with value := draft.value } name draft.metadata
    rw [Attempt.bind_of_ok hnamed]
    dsimp only
    split at hvalue
    · rename_i hzero
      rw [Attempt.bind_of_error hvalue, if_pos hzero]
    · rename_i hzero
      rw [Attempt.bind_of_ok hvalue, if_neg hzero]
      dsimp only
      split at hmetadata
      · rename_i hunnamed
        rw [Attempt.bind_of_error hmetadata, if_pos hunnamed]
      · rename_i hnamed
        rw [Attempt.bind_of_ok hmetadata, if_neg hnamed]
        rfl

theorem writeMetadata_described {entry : String} (h : entry ≠ Metadata.binaryMarker) (draft : Draft)
    (name : Name) (text : String) :
    (draft.described name).writeMetadata entry text =
      (draft.addMetadata entry text).described name := by
  rw [described_addMetadata, if_neg h]

theorem Sound.addMetadata (h : draft.Sound) {entry : String} (hentry : entry ≠ "")
    (text : String) : (draft.addMetadata entry text).Sound := by
  refine ⟨h.noZero, ?_⟩
  rw [Draft.addMetadata, List.map_append, List.mem_append, not_or]
  exact ⟨h.named, by simpa using hentry.symm⟩

/-- A part that the described key takes leaves it as the draft with that part describes it. -/
theorem Sound.of_apply (h : draft.Sound) (hplace : part.group = .value → draft.metadata = [])
    {changed : Key} (happly : ((draft.described name).apply part.edit).outcome = .ok changed) :
    (draft.add part).Sound ∧ changed = (draft.add part).described name := by
  cases part with
  | text content =>
    have hset := (outcome_setText_described (hplace rfl) name content).symm.trans happly
    split at hset
    · cases hset
    · rename_i hzero
      exact ⟨⟨hzero, h.named⟩, (Except.ok.inj hset).symm⟩
  | binary content =>
    obtain rfl := Except.ok.inj happly
    exact ⟨⟨not_false, h.named⟩, setBinary_described (hplace rfl) name content⟩
  | metadata entry text =>
    have hset := (outcome_setMetadata_described draft name entry text).symm.trans happly
    split at hset
    · cases hset
    · rename_i hentry
      exact ⟨h.addMetadata hentry text, (Except.ok.inj hset).symm⟩
  | owner owner =>
    obtain rfl := Except.ok.inj happly
    exact ⟨h.addMetadata (by decide) owner,
      writeMetadata_described (by decide) draft name owner⟩
  | comment comment =>
    obtain rfl := Except.ok.inj happly
    exact ⟨h.addMetadata (by decide) comment,
      writeMetadata_described (by decide) draft name comment⟩
  | permissions permissions =>
    obtain rfl := Except.ok.inj happly
    exact ⟨⟨h.noZero, h.named⟩, rfl⟩

theorem metadata_add (h : part.group ≠ .metadata) : (draft.add part).metadata = draft.metadata := by
  cases part with
  | metadata entry text | owner owner | comment comment => exact absurd rfl h
  | text content | binary content | permissions permissions => rfl

theorem Sound.of_give (h : draft.Sound)
    (hplace : ∀ part ∈ parts, part.group = .value → draft.metadata = [])
    (hplaces : parts.Pairwise fun earlier later =>
      ¬(earlier.group = .metadata ∧ later.group = .value))
    {key : Key} (hgive : (give parts (draft.described name)).outcome = .ok key) :
    (parts.foldl add draft).Sound ∧ key = (parts.foldl add draft).described name := by
  induction parts generalizing draft with
  | nil => exact ⟨h, (Except.ok.inj hgive).symm⟩
  | cons part parts ih =>
    rw [give, List.foldlM_cons] at hgive
    obtain ⟨next, hnext, hrest⟩ := Attempt.outcome_bind_eq_ok_iff.1 hgive
    obtain ⟨hsound, rfl⟩ := h.of_apply (hplace part List.mem_cons_self) hnext
    apply ih hsound _ hplaces.of_cons hrest
    intro later hlater hvalue
    have hpart : part.group ≠ .metadata := fun hmetadata =>
      List.rel_of_pairwise_cons hplaces hlater ⟨hmetadata, hvalue⟩
    rw [metadata_add hpart]
    exact hplace later (List.mem_cons_of_mem part hlater) hvalue

theorem foldl_marked (entries : List (String × String)) (value : Value) :
    let result := entries.foldl
      (fun value entry => if entry.1 = Metadata.binaryMarker then value.marked else value) value
    result = value ∨ result = value.marked := by
  induction entries generalizing value with
  | nil => exact .inl rfl
  | cons entry entries ih =>
    rw [List.foldl_cons]
    split
    · have hmarked := ih value.marked
      rw [Value.marked_marked, or_self] at hmarked
      exact .inr hmarked
    · exact ih value

theorem value_described (draft : Draft) (name : Name) :
    (draft.described name).value = draft.value ∨
      (draft.described name).value = draft.value.marked :=
  foldl_marked draft.metadata draft.value

theorem bytes_value_described (draft : Draft) (name : Name) :
    (draft.described name).value.bytes = draft.value.bytes := by
  obtain h | h := draft.value_described name
  · rw [h]
  · rw [h, Value.bytes_marked]

theorem isBinary_described (draft : Draft) (name : Name) :
    (draft.described name).isBinary = true ↔
      (∃ content, draft.value = .binary content) ∨
        ∃ text, (Metadata.binaryMarker, text) ∈ draft.metadata := by
  have hfirst : (firstMetadata draft.value).contains Metadata.binaryMarker = true ↔
      ∃ content, draft.value = .binary content := by
    cases draft.value with
    | absent | text content => simp [firstMetadata, Metadata.contains, Metadata.get?]
    | binary content => simp [firstMetadata, Metadata.contains, Metadata.get?]
  rw [← hfirst]
  exact Metadata.contains_foldl_set _ _ _

theorem mem_entries_iff {entry : String} (howner : entry ≠ Metadata.ownerName)
    (hcomment : entry ≠ Metadata.commentName) (text : String) :
    (entry, text) ∈ entries parts ↔ .metadata entry text ∈ parts := by
  rw [entries, List.mem_filterMap]
  constructor
  · rintro ⟨part, hpart, hentry⟩
    cases part with
    | metadata name content =>
      cases hentry
      exact hpart
    | owner name =>
      cases hentry
      exact absurd rfl howner
    | comment note =>
      cases hentry
      exact absurd rfl hcomment
    | text content | binary content | permissions granted => cases hentry
  · intro hpart
    exact ⟨_, hpart, rfl⟩

theorem exists_entry_iff {entry : String} (howner : entry ≠ Metadata.ownerName)
    (hcomment : entry ≠ Metadata.commentName) :
    entry ∈ (entries parts).map (·.1) ↔ ∃ text, .metadata entry text ∈ parts := by
  simp only [← mem_entries_iff howner hcomment, List.mem_map, Prod.exists, exists_and_right,
    exists_eq_right]

/-- Why parts do not make a key, the text of the name before the last value. -/
inductive Refused (text : String) (parts : List Part) : KeyError → Prop
  | unreadable {error : KeyError} (h : Name.parse text = .error error) : Refused text parts error
  | zeroInText {name : Name} {content : String} (hname : Name.parse text = .ok name)
    (hvalue : lastValue? parts = some (.text content)) (h : '\x00' ∈ content.toList) :
    Refused text parts .embeddedNul
  | unnamed {name : Name} {value : String} (hname : Name.parse text = .ok name)
    (hvalue : ∀ content, lastValue? parts = some (.text content) → '\x00' ∉ content.toList)
    (h : .metadata "" value ∈ parts) :
    Refused text parts (.invalidName "" .emptyMetadataName)

theorem holdsZero_iff : ((lastValue? parts).getD .absent).HoldsZero ↔
    ∃ content, lastValue? parts = some (.text content) ∧ '\x00' ∈ content.toList := by
  cases lastValue? parts with
  | none => simp [Value.HoldsZero]
  | some value => cases value <;> simp [Value.HoldsZero]

theorem refused_of_build {text : String} {error : KeyError}
    (h : (ofParts text parts).build.outcome = .error error) : Refused text parts error := by
  rw [outcome_build, ofParts_eq] at h
  dsimp only at h
  split at h
  · rename_i cause hname
    cases h
    exact .unreadable hname
  · rename_i name hname
    split at h
    · rename_i hholds
      obtain ⟨content, hvalue, hzero⟩ := holdsZero_iff.1 hholds
      cases h
      exact .zeroInText hname hvalue hzero
    · rename_i hholds
      split at h
      · rename_i hentry
        obtain ⟨value, hpart⟩ := (exists_entry_iff (by decide) (by decide)).1 hentry
        cases h
        refine .unnamed hname (fun content hvalue hzero => ?_) hpart
        exact hholds (holdsZero_iff.2 ⟨content, hvalue, hzero⟩)
      · cases h

theorem Refused.build {text : String} {error : KeyError} (h : Refused text parts error) :
    (ofParts text parts).build.outcome = .error error := by
  rw [outcome_build, ofParts_eq]
  cases h with
  | unreadable hname => simp only [hname]
  | zeroInText hname hvalue hzero =>
    simp only [hname]
    exact if_pos (holdsZero_iff.2 ⟨_, hvalue, hzero⟩)
  | unnamed hname hvalue hpart =>
    have hholds : ¬((lastValue? parts).getD .absent).HoldsZero := by
      intro hholds
      obtain ⟨content, hlast, hzero⟩ := holdsZero_iff.1 hholds
      exact hvalue content hlast hzero
    simp only [hname]
    exact (if_neg hholds).trans
      (if_pos ((exists_entry_iff (by decide) (by decide)).2 ⟨_, hpart⟩))

theorem build_eq_error_iff {text : String} {error : KeyError} :
    (ofParts text parts).build.outcome = .error error ↔ Refused text parts error :=
  ⟨refused_of_build, Refused.build⟩

theorem build_eq_ok_iff {draft : Draft} {key : Key} :
    draft.build.outcome = .ok key ↔
      ∃ name, Name.parse draft.name = .ok name ∧ draft.Sound ∧ key = draft.described name := by
  rw [outcome_build]
  constructor
  · intro h
    split at h
    · cases h
    · rename_i name hname
      split at h
      · cases h
      · rename_i hzero
        split at h
        · cases h
        · rename_i hentry
          exact ⟨name, hname, ⟨hzero, hentry⟩, (Except.ok.inj h).symm⟩
  · rintro ⟨name, hname, hsound, rfl⟩
    rw [hname]
    exact (if_neg hsound.noZero).trans (if_neg hsound.named)

/-- Only the name, the last value, the metadata in order and the last permissions make a key. -/
theorem build_follows_groups (text : String) (parts : List Part) :
    (∀ others, lastValue? others = lastValue? parts → entries others = entries parts →
      lastPermissions? others = lastPermissions? parts →
      (ofParts text others).build = (ofParts text parts).build) ∧
    (∀ others : List Part,
      (∀ group, others.filter (·.group = group) = parts.filter (·.group = group)) →
      (ofParts text others).build = (ofParts text parts).build) ∧
    (∀ error, (ofParts text parts).build.outcome = .error error ↔ Refused text parts error) ∧
    (∀ key, (ofParts text parts).build.outcome = .ok key →
      (∀ value, lastValue? parts = some value → key.value.bytes = value.bytes) ∧
      (lastValue? parts = none → key.value = .absent) ∧
      key.needsSync = true ∧
      (key.isBinary = true ↔ (∃ content, lastValue? parts = some (.binary content)) ∨
        ∃ value, .metadata "binary" value ∈ parts)) ∧
    ((parts.Pairwise fun earlier later =>
        ¬(earlier.group = .metadata ∧ later.group = .value)) →
      ∀ key, (Key.named text >>= give parts).outcome = .ok key →
        (ofParts text parts).build.outcome = .ok key) := by
  refine ⟨?_, ?_, fun error => build_eq_error_iff, ?_, ?_⟩
  · intro others hvalue hentries hpermissions
    rw [ofParts_eq, ofParts_eq, hvalue, hentries, hpermissions]
  · intro others hgroups
    rw [ofParts_congr_of_groups hgroups]
  · intro key hbuild
    obtain ⟨name, -, -, rfl⟩ := build_eq_ok_iff.1 hbuild
    have hbytes := (ofParts text parts).bytes_value_described name
    have hmarker := (ofParts text parts).isBinary_described name
    have hvalue := (ofParts text parts).value_described name
    rw [ofParts_eq] at hbytes hmarker hvalue ⊢
    refine ⟨?_, ?_, rfl, ?_⟩
    · intro value hlast
      rw [hbytes, hlast]
      rfl
    · intro hlast
      rw [hlast] at hvalue ⊢
      obtain hvalue | hvalue := hvalue
      · exact hvalue
      · exact hvalue
    · rw [hmarker]
      refine or_congr (exists_congr fun content => ?_)
        (exists_congr fun value => mem_entries_iff (by decide) (by decide) value)
      cases lastValue? parts with
      | none => simp
      | some value => simp
  · intro hplaces key hgiven
    obtain ⟨start, hstart, hgive⟩ := Attempt.outcome_bind_eq_ok_iff.1 hgiven
    obtain ⟨name, hname, rfl⟩ := Key.setName_eq_ok_iff.1 hstart
    let bare : Draft := { name := text }
    have hbare : bare.Sound := ⟨not_false, List.not_mem_nil⟩
    obtain ⟨hsound, rfl⟩ := hbare.of_give (fun _ _ _ => rfl) hplaces hgive
    exact build_eq_ok_iff.2 ⟨name, by rwa [ofParts_eq], hsound, rfl⟩

/-- An entry for the marker turns the last text into bytes, whatever the earlier ones held. -/
theorem build_of_overwritten_parts :
    let parts : List Part :=
      [.binary [0], .permissions { uid := 7 }, .text "v", .metadata "binary" "x", .owner "me"]
    let others : List Part :=
      [.text "\x00", .metadata "binary" "x", .owner "me", .text "v", .permissions { uid := 7 }]
    let key : Key :=
      { name := some ⟨"user/a", ["user", "a"]⟩
        value := .binary [118]
        metadata := ⟨[("binary", "x"), ("owner", "me")]⟩
        permissions := { uid := 7 } }
    (ofParts "user//a" parts).build.outcome = .ok key ∧
      (ofParts "user//a" others).build = (ofParts "user//a" parts).build ∧
      (ofParts "user//a" [.metadata "" "x", .text "\x00"]).build.outcome = .error .embeddedNul ∧
      key.isBinary = true := by
  intro parts others key
  obtain ⟨hparts, -, -, hbuilt, hgiven⟩ := build_follows_groups "user//a" parts
  obtain ⟨-, -, hrefused, -⟩ := build_follows_groups "user//a" [.metadata "" "x", .text "\x00"]
  have hbuild : (ofParts "user//a" parts).build.outcome = .ok key :=
    hgiven (by decide +kernel) key (by decide +kernel)
  obtain ⟨-, -, -, hmarker⟩ := hbuilt key hbuild
  have hname : Name.parse "user//a" = .ok ⟨"user/a", ["user", "a"]⟩ := by decide +kernel
  have hlast : lastValue? [.metadata "" "x", .text "\x00"] = some (.text "\x00") := by
    decide +kernel
  exact ⟨hbuild, hparts others (by decide +kernel) (by decide +kernel) (by decide +kernel),
    (hrefused _).2 (.zeroInText hname hlast (by decide +kernel)),
    hmarker.2 (.inr ⟨"x", by decide +kernel⟩)⟩

end Draft

end Keyspace
