import Keyspace.Proofs.Name.Settled

namespace Keyspace

open Piece Text

namespace Levels

/-- The positions that the search comes to. -/
inductive Searched (bytes : List UInt8) : Nat → Prop
  | start : Searched bytes 0
  | onward {here next : Nat} (hhere : Searched bytes here) (h : onward? bytes here = some next) :
      Searched bytes next

section Search

variable {bytes : List UInt8} {here next : Nat}

theorem stop_escape (rest : List UInt8) :
    stop (escape.toUInt8 :: rest) = stop (rest.drop 1) + 2 := by
  cases rest with
  | nil => rfl
  | cons b rest => exact stop_pair b rest

/-- What is left to pass over, by what one round of the search does. -/
theorem stop_drop (bytes : List UInt8) (here : Nat) :
    stop (bytes.drop here) =
      (onward? bytes here).elim 0 fun next => next - here + stop (bytes.drop next) := by
  cases hbyte : bytes[here]? with
  | none =>
    rw [onward?, hbyte, List.drop_eq_nil_of_le (List.getElem?_eq_none_iff.1 hbyte)]
    rfl
  | some b =>
    obtain ⟨hhere, rfl⟩ := List.getElem?_eq_some_iff.1 hbyte
    rw [onward?, hbyte, List.drop_eq_getElem_cons hhere]
    dsimp only
    by_cases hescape : bytes[here] = escape.toUInt8
    · rw [if_pos hescape, hescape, stop_escape, List.drop_drop, Option.elim_some,
        Nat.add_sub_cancel_left, Nat.add_comm 2]
    by_cases hseparator : bytes[here] = separator.toUInt8
    · rw [if_neg hescape, if_pos hseparator, hseparator, stop_separator]
      rfl
    · rw [if_neg hescape, if_neg hseparator, stop_cons hescape hseparator, Option.elim_some,
        Nat.add_sub_cancel_left, Nat.add_comm 1]

theorem lt_of_onward (h : onward? bytes here = some next) : here < next := by
  unfold onward? at h
  split at h
  · cases h
  · split at h
    · cases h
      exact Nat.lt_add_of_pos_right Nat.two_pos
    · split at h
      · cases h
      · cases h
        exact Nat.lt_succ_self here

theorem Searched.add_stop (h : Searched bytes here) :
    here + stop (bytes.drop here) = stop bytes := by
  induction h with
  | start => rw [Nat.zero_add, List.drop_zero]
  | onward _ hnext ih =>
    rw [stop_drop, hnext, Option.elim_some] at ih
    have hlt := lt_of_onward hnext
    omega

theorem Searched.le_stop (h : Searched bytes here) : here ≤ stop bytes := by
  rw [← h.add_stop]
  exact Nat.le_add_right here _

theorem Searched.eq_stop (h : Searched bytes here) (hhalted : onward? bytes here = none) :
    here = stop bytes := by
  rw [← h.add_stop, stop_drop, hhalted]
  rfl

theorem Searched.reaches_stop (h : Searched bytes here) :
    Searched bytes (stop bytes) ∧ onward? bytes (stop bytes) = none := by
  -- on what is left to pass over
  induction hleft : stop bytes - here using Nat.strongRecOn generalizing here with
  | ind left ih =>
    cases hnext : onward? bytes here with
    | none =>
      rw [← h.eq_stop hnext]
      exact ⟨h, hnext⟩
    | some next =>
      have hlt := lt_of_onward hnext
      have hle := (h.onward hnext).le_stop
      exact ih (stop bytes - next) (by omega) (h.onward hnext) rfl

theorem searched_and_halted_iff :
    Searched bytes here ∧ onward? bytes here = none ↔ here = stop bytes := by
  constructor
  · intro h
    exact h.1.eq_stop h.2
  · rintro rfl
    exact Searched.start.reaches_stop

end Search

/-- A text is cut at its first separator that no escape protects, or else at its end. -/
structure IsCut (text level rest : String) : Prop where
  undivided : Undivided level.toList
  ending : text = level ∧ rest = "" ∨ text = level ++ "/" ++ rest
  stop_eq : stop (utf8 text) = level.utf8ByteSize

section Cut

variable {text level rest : String}

theorem IsCut.exists_append (h : IsCut text level rest) : ∃ behind, text = level ++ behind := by
  obtain ⟨rfl, rfl⟩ | rfl := h.ending
  · exact ⟨"", String.append_empty.symm⟩
  · exact ⟨"/" ++ rest, String.append_assoc⟩

theorem IsCut.isSuffix (h : IsCut text level rest) : rest.toList <:+ text.toList := by
  obtain ⟨rfl, rfl⟩ | rfl := h.ending
  · exact List.nil_suffix
  · rw [String.toList_append]
    exact List.suffix_append _ _

theorem IsCut.stop_le (h : IsCut text level rest) : stop (utf8 text) ≤ text.utf8ByteSize := by
  obtain ⟨behind, rfl⟩ := h.exists_append
  rw [h.stop_eq, String.utf8ByteSize_append]
  exact Nat.le_add_right _ _

theorem IsCut.isValid (h : IsCut text level rest) :
    String.Pos.Raw.IsValid text ⟨stop (utf8 text)⟩ := by
  obtain ⟨behind, hbehind⟩ := h.exists_append
  rw [String.Pos.Raw.isValid_iff_exists_append, h.stop_eq]
  exact ⟨level, behind, hbehind, rfl⟩

theorem exists_cut (h : wellEscaped text.toList = true) :
    ∃ level rest, cut? text = some (level, rest) ∧ IsCut text level rest ∧
      wellEscaped rest.toList = true := by
  obtain ⟨first, more, hspell⟩ := exists_spell h
  obtain rfl : text = String.ofList (spell first more) := by rw [← hspell, String.ofList_toList]
  have hlevel : Undivided (String.ofList (escapeSegment first)).toList := by
    rw [String.toList_ofList]
    exact undivided_escapeSegment first
  have hsize : (encode (escapeSegment first)).length =
      (String.ofList (escapeSegment first)).utf8ByteSize := by
    rw [← length_utf8, utf8_eq_encode, String.toList_ofList]
  cases more with
  | nil =>
    refine ⟨_, _, cut?_spell_nil first, ⟨hlevel, .inl ⟨?_, rfl⟩, ?_⟩, rfl⟩
    · rw [spell_nil]
    · rw [utf8_eq_encode, String.toList_ofList, stop_spell_nil, hsize]
  | cons next more =>
    refine ⟨_, _, cut?_spell_cons first next more, ⟨hlevel, .inr ?_, ?_⟩, ?_⟩
    · rw [spell_cons, ← String.toList_inj]
      simp only [String.toList_append, String.toList_ofList, List.append_assoc]
      rfl
    · rw [utf8_eq_encode, String.toList_ofList, stop_spell_cons, hsize]
    · rw [String.toList_ofList]
      exact wellEscaped_spell next more

theorem isCut_of_cut? (h : wellEscaped text.toList = true) (hcut : cut? text = some (level, rest)) :
    IsCut text level rest ∧ wellEscaped rest.toList = true := by
  obtain ⟨_, _, hsome, hiscut⟩ := exists_cut h
  rw [hcut] at hsome
  cases hsome
  exact hiscut

end Cut

/-- The texts that remain of a text after some cuts, each behind the one before. -/
inductive Remains (text : String) : String → Prop
  | whole : Remains text text
  | behind {rest level later : String} (hrest : Remains text rest) (hne : rest ≠ "")
      (h : cut? rest = some (level, later)) : Remains text later

theorem Remains.isSuffix_and_wellEscaped {text rest : String} (h : Remains text rest)
    (hescaped : wellEscaped text.toList = true) :
    rest.toList <:+ text.toList ∧ wellEscaped rest.toList = true := by
  induction h with
  | whole => exact ⟨List.suffix_rfl, hescaped⟩
  | behind _ hne hcut ih =>
    obtain ⟨hsuffix, hrest⟩ := ih
    obtain ⟨hiscut, hlater⟩ := isCut_of_cut? hrest hcut
    exact ⟨hiscut.isSuffix.trans hsuffix, hlater⟩

/-- Cut after cut uses the text up. -/
theorem Remains.empty {text rest : String} (h : Remains text rest)
    (hescaped : wellEscaped text.toList = true) : Remains text "" := by
  induction hsize : rest.utf8ByteSize using Nat.strongRecOn generalizing rest with
  | ind size ih =>
    by_cases hne : rest = ""
    · exact hne ▸ h
    · obtain ⟨level, later, hcut, -, -⟩ := exists_cut (h.isSuffix_and_wellEscaped hescaped).2
      have hlt : later.utf8ByteSize < size := hsize ▸ rest_lt_of_cut? hcut hne
      exact ih later.utf8ByteSize hlt (h.behind hne hcut) rfl

theorem next?_of_wellEscaped {text : String} (h : wellEscaped text.toList = true) :
    ∃ rest, next? text = some ((ofText text).head?, rest) ∧ ofText rest = (ofText text).tail ∧
      wellEscaped rest.toList = true := by
  induction text using next?.induct with
  | case1 =>
    rw [next?_empty, ofText_empty]
    exact ⟨"", rfl, ofText_empty, rfl⟩
  | case2 text hne hcut =>
    obtain ⟨_, _, hsome, -, -⟩ := exists_cut h
    cases hcut.symm.trans hsome
  | case3 text hne rest hcut ih =>
    rw [next?_of_cut? hcut hne, ofText_of_cut? hcut hne, if_pos rfl, if_pos rfl]
    exact ih (isCut_of_cut? h hcut).2
  | case4 text hne level rest hcut hlevel =>
    rw [next?_of_cut? hcut hne, ofText_of_cut? hcut hne, if_neg hlevel, if_neg hlevel]
    exact ⟨rest, rfl, rfl, (isCut_of_cut? h hcut).2⟩

theorem drain?_of_wellEscaped {text : String} (h : wellEscaped text.toList = true) :
    drain? text = some (ofText text) := by
  induction hlevels : ofText text generalizing text with
  | nil =>
    obtain ⟨rest, hnext, -, -⟩ := next?_of_wellEscaped h
    rw [hlevels] at hnext
    exact drain?_of_none hnext
  | cons level levels ih =>
    obtain ⟨rest, hnext, htail, hrest⟩ := next?_of_wellEscaped h
    rw [hlevels] at hnext htail
    rw [drain?_of_some hnext, ih hrest htail]
    rfl

end Levels

namespace Name

theorem readByCalls?_eq (text : String) : readByCalls? text = some (parse text) := by
  by_cases hempty : text = ""
  · rw [readByCalls?, parse, if_pos hempty, if_pos hempty]
  rw [readByCalls?, parse, if_neg hempty, if_neg hempty]
  by_cases hescaped : wellEscaped text.toList = false
  · rw [if_pos hescaped, if_pos hescaped]
  rw [if_neg hescaped, if_neg hescaped]
  have hwell := Bool.of_not_eq_false hescaped
  by_cases hhead : text.toList.head? = some separator
  · simp only [splitRoot, if_pos hhead, Levels.drain?_of_wellEscaped hwell]
    rfl
  · obtain ⟨rest, hnext, htail, hrest⟩ := Levels.next?_of_wellEscaped hwell
    simp only [splitRoot, if_neg hhead, hnext, Levels.drain?_of_wellEscaped hrest, htail,
      List.head?_map, Option.map_some, List.map_tail]
    split
    · rfl
    · rfl

theorem Reachable.wellEscaped_escaped {name : Name} (h : name.Reachable) :
    wellEscaped name.escaped.toList = true := by
  obtain ⟨first, more, -, htext⟩ := exists_spell_of_parse h.parse_escaped
  rw [htext, String.toList_ofList]
  exact wellEscaped_spell first more

/-- Every cut of a well-escaped text falls between characters and leaves a well-escaped suffix. -/
theorem divided_between_characters :
    (∀ {text : String}, wellEscaped text.toList = true → Levels.Remains text "" ∧
      ∀ {rest}, Levels.Remains text rest →
        rest.toList <:+ text.toList ∧ wellEscaped rest.toList = true ∧
        (∀ position, Levels.Searched (utf8 rest) position → position ≤ rest.utf8ByteSize) ∧
        (∀ position, Levels.Searched (utf8 rest) position ∧
          Levels.onward? (utf8 rest) position = none ↔ position = Levels.stop (utf8 rest)) ∧
        String.Pos.Raw.IsValid rest ⟨Levels.stop (utf8 rest)⟩ ∧
        ∃ level later, Levels.cut? rest = some (level, later) ∧ Levels.IsCut rest level later ∧
          (rest ≠ "" → later.utf8ByteSize < rest.utf8ByteSize)) ∧
    (∀ text, readByCalls? text = some (parse text)) ∧
    ∀ {name : Name}, name.Reachable →
      wellEscaped name.escaped.toList = true ∧ Levels.drain? name.escaped = some name.levels := by
  refine ⟨?cuts, readByCalls?_eq, ?names⟩
  case cuts =>
    intro text h
    refine ⟨Levels.Remains.whole.empty h, ?_⟩
    intro rest hrest
    obtain ⟨hsuffix, hescaped⟩ := hrest.isSuffix_and_wellEscaped h
    obtain ⟨level, later, hcut, hiscut, -⟩ := Levels.exists_cut hescaped
    refine ⟨hsuffix, hescaped, ?_, fun _ => Levels.searched_and_halted_iff, hiscut.isValid, level,
      later, hcut, hiscut, Levels.rest_lt_of_cut? hcut⟩
    intro position hposition
    exact Nat.le_trans hposition.le_stop hiscut.stop_le
  case names =>
    intro name hname
    have hescaped := hname.wellEscaped_escaped
    exact ⟨hescaped, Levels.drain?_of_wellEscaped hescaped⟩

theorem divided_beside_wide_characters :
    let text := "é\\/ü//\\\\ö/"
    wellEscaped text.toList = true ∧ Levels.Remains text "" ∧ Levels.Remains text "\\\\ö/" ∧
    Levels.cut? "\\\\ö/" = some ("\\\\ö", "") ∧ Levels.IsCut "\\\\ö/" "\\\\ö" "" ∧
    (∀ position, Levels.Searched (utf8 "\\\\ö/") position → position ≤ 5) ∧
    String.Pos.Raw.IsValid "\\\\ö/" ⟨4⟩ ∧
    readByCalls? text = some (.ok ⟨"é\\/ü/\\\\ö", ["é/ü", "\\ö"]⟩) ∧
    Levels.drain? "é\\/ü/\\\\ö" = some ["é\\/ü", "\\\\ö"] := by
  intro text
  obtain ⟨hcuts, hreads, hnames⟩ := divided_between_characters
  have hescaped : wellEscaped text.toList = true := by decide +kernel
  obtain ⟨hend, hremains⟩ := hcuts hescaped
  have hfirst : Levels.cut? text = some ("é\\/ü", "/\\\\ö/") := by decide +kernel
  have hsecond : Levels.cut? "/\\\\ö/" = some ("", "\\\\ö/") := by decide +kernel
  have hrest : Levels.Remains text "\\\\ö/" :=
    (Levels.Remains.whole.behind (by decide) hfirst).behind (by decide) hsecond
  obtain ⟨-, -, hpositions, -, hvalid, level, later, hcut, hiscut, -⟩ := hremains hrest
  have hlast : Levels.cut? "\\\\ö/" = some ("\\\\ö", "") := by decide +kernel
  obtain ⟨rfl, rfl⟩ : level = "\\\\ö" ∧ later = "" := by
    rw [hlast] at hcut
    cases hcut
    exact ⟨rfl, rfl⟩
  have hread : parse text = .ok ⟨"é\\/ü/\\\\ö", ["é/ü", "\\ö"]⟩ := by decide +kernel
  obtain ⟨-, hlevels⟩ := hnames (.parse hread)
  refine ⟨hescaped, hend, hrest, hlast, hiscut, hpositions, hvalid, ?_, ?_⟩
  · rw [hreads, hread]
  · rw [hlevels]
    decide +kernel

end Name

end Keyspace
