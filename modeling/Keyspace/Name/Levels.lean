import Keyspace.Name.Escape
import Keyspace.Text.Utf8

namespace Keyspace.Levels

/-- The number of bytes that the search passes over, where an escape always counts for two. -/
def stop : List UInt8 → Nat
  | [] => 0
  | b :: rest =>
    if b = escape.toUInt8 then
      match rest with
      | [] => 2
      | _ :: rest => stop rest + 2
    else if b = separator.toUInt8 then 0
    else stop rest + 1

theorem stop_pair (b : UInt8) (rest : List UInt8) :
    stop (escape.toUInt8 :: b :: rest) = stop rest + 2 := by
  simp [stop]

theorem stop_separator (rest : List UInt8) : stop (separator.toUInt8 :: rest) = 0 := by
  have hne : separator.toUInt8 ≠ escape.toUInt8 := by decide
  cases rest <;> simp [stop, hne]

theorem stop_cons {b : UInt8} (he : b ≠ escape.toUInt8) (hs : b ≠ separator.toUInt8)
    (rest : List UInt8) : stop (b :: rest) = stop rest + 1 := by
  cases rest <;> simp [stop, he, hs]

/-- The position behind the byte at this one, or behind the pair, unless the search stops here. -/
def onward? (bytes : List UInt8) (position : Nat) : Option Nat :=
  match bytes[position]? with
  | none => none
  | some b =>
    if b = escape.toUInt8 then some (position + 2)
    else if b = separator.toUInt8 then none
    else some (position + 1)

/-- The text before the stop and the one behind it, unless the stop is inside a character. -/
def cut? (text : String) : Option (String × String) :=
  let bytes := Text.utf8 text
  let cut := min (stop bytes) bytes.length
  (Text.ofUtf8? (bytes.take cut)).map fun level =>
    (level, (Text.ofUtf8? (bytes.drop (cut + 1))).getD "")

theorem rest_lt_of_cut? {text level rest : String} (h : cut? text = some (level, rest))
    (hne : text ≠ "") : rest.utf8ByteSize < text.utf8ByteSize := by
  have hpos : 0 < text.utf8ByteSize :=
    Nat.pos_of_ne_zero fun hzero => hne (String.utf8ByteSize_eq_zero_iff.1 hzero)
  obtain ⟨_, _, hpair⟩ := Option.map_eq_some_iff.1 h
  cases hpair
  cases hrest : Text.ofUtf8? ((Text.utf8 text).drop
      (min (stop (Text.utf8 text)) (Text.utf8 text).length + 1)) with
  | none => exact hpos
  | some rest =>
    have hlength := congrArg List.length (Text.ofUtf8?_eq_some_iff.1 hrest)
    rw [List.length_drop, Text.length_utf8, Text.length_utf8] at hlength
    change rest.utf8ByteSize < _
    omega

/-- The levels of a text with their escapes, without the empty ones. -/
def ofText (text : String) : List String :=
  if _hne : text = "" then []
  else
    match _h : cut? text with
    | none => []
    | some (level, rest) => if level = "" then ofText rest else level :: ofText rest
termination_by text.utf8ByteSize
decreasing_by
  · exact rest_lt_of_cut? _h _hne
  · exact rest_lt_of_cut? _h _hne

theorem ofText_empty : ofText "" = [] := by
  rw [ofText, dif_pos rfl]

theorem ofText_of_cut? {text level rest : String} (h : cut? text = some (level, rest))
    (hne : text ≠ "") :
    ofText text = if level = "" then ofText rest else level :: ofText rest := by
  rw [ofText, dif_neg hne]
  split
  · simp_all
  · simp_all

/-- The next level that is not empty, and the text left for later calls. -/
def next? (text : String) : Option (Option String × String) :=
  if _hne : text = "" then some (none, "")
  else
    match _h : cut? text with
    | none => none
    | some (level, rest) => if level = "" then next? rest else some (some level, rest)
termination_by text.utf8ByteSize
decreasing_by exact rest_lt_of_cut? _h _hne

section Calls

variable {text level rest : String}

theorem next?_empty : next? "" = some (none, "") := by
  rw [next?, dif_pos rfl]

theorem next?_of_cut? (h : cut? text = some (level, rest)) (hne : text ≠ "") :
    next? text = if level = "" then next? rest else some (some level, rest) := by
  rw [next?, dif_neg hne]
  split
  · simp_all
  · simp_all

theorem next?_of_cut?_eq_none (h : cut? text = none) (hne : text ≠ "") : next? text = none := by
  rw [next?, dif_neg hne]
  split
  · rfl
  · simp_all

theorem lt_of_next? (h : next? text = some (some level, rest)) :
    rest.utf8ByteSize < text.utf8ByteSize := by
  induction text using next?.induct with
  | case1 =>
    rw [next?_empty] at h
    cases h
  | case2 text hne hcut =>
    rw [next?_of_cut?_eq_none hcut hne] at h
    cases h
  | case3 text hne later hcut ih =>
    rw [next?_of_cut? hcut hne, if_pos rfl] at h
    exact Nat.lt_trans (ih h) (rest_lt_of_cut? hcut hne)
  | case4 text hne first later hcut hfirst =>
    rw [next?_of_cut? hcut hne, if_neg hfirst] at h
    cases h
    exact rest_lt_of_cut? hcut hne

/-- The levels that come of calling for the next one until there is none. -/
def drain? (text : String) : Option (List String) :=
  match _h : next? text with
  | none => none
  | some (none, _) => some []
  | some (some level, rest) => (drain? rest).map (level :: ·)
termination_by text.utf8ByteSize
decreasing_by exact lt_of_next? _h

theorem drain?_of_none (h : next? text = some (none, rest)) :
    drain? text = some [] := by
  rw [drain?]
  split
  · simp_all
  · rfl
  · simp_all

theorem drain?_of_some (h : next? text = some (some level, rest)) :
    drain? text = (drain? rest).map (level :: ·) := by
  rw [drain?]
  split
  · simp_all
  · simp_all
  · simp_all

end Calls

end Keyspace.Levels
