import Keyspace.Name.Piece

namespace Keyspace

theorem escapeSegment_reserved {c : Char} (hc : isReserved c = true) (raw : List Char) :
    escapeSegment (c :: raw) = escape :: c :: escapeSegment raw := by
  simp [escapeSegment, hc]

theorem escapeSegment_plain {c : Char} (hc : isReserved c = false) (raw : List Char) :
    escapeSegment (c :: raw) = c :: escapeSegment raw := by
  simp [escapeSegment, hc]

theorem escapeSegment_eq_nil_iff {raw : List Char} : escapeSegment raw = [] ↔ raw = [] := by
  cases raw with
  | nil => exact ⟨fun _ => rfl, fun _ => rfl⟩
  | cons c raw =>
    by_cases hc : isReserved c = true
    · simp [escapeSegment, hc]
    · simp [escapeSegment, hc]

theorem escapeSegment_injective {a b : List Char} (h : escapeSegment a = escapeSegment b) :
    a = b := by
  rw [← unescape_escapeSegment a, h, unescape_escapeSegment]

theorem filter_escapeSegment (pieces : List (List Char)) :
    (pieces.map escapeSegment).filter (· ≠ []) = (pieces.filter (· ≠ [])).map escapeSegment := by
  rw [List.filter_map]
  congr 2
  funext raw
  simp [escapeSegment_eq_nil_iff]

theorem unescapeText_escapeSegment (raw : List Char) :
    unescapeText (escapeSegment raw) = String.ofList raw := by
  rw [unescapeText, unescape_escapeSegment]

theorem map_unescapeText_escapeSegment (pieces : List (List Char)) :
    (pieces.map escapeSegment).map unescapeText = pieces.map String.ofList := by
  rw [List.map_map]
  exact List.map_congr_left fun raw _ => unescapeText_escapeSegment raw

theorem escapeSegment_append (raw rest : List Char) :
    escapeSegment (raw ++ rest) = escapeSegment raw ++ escapeSegment rest := by
  induction raw with
  | nil => rfl
  | cons c raw ih =>
    cases hc : isReserved c with
    | true =>
      rw [List.cons_append, escapeSegment_reserved hc, escapeSegment_reserved hc, ih]
      rfl
    | false =>
      rw [List.cons_append, escapeSegment_plain hc, escapeSegment_plain hc, ih]
      rfl

theorem escapeSegment_of_plain {raw : List Char} (h : ∀ c ∈ raw, isReserved c = false) :
    escapeSegment raw = raw := by
  induction raw with
  | nil => rfl
  | cons c raw ih =>
    obtain ⟨hc, hraw⟩ := List.forall_mem_cons.1 h
    rw [escapeSegment_plain hc, ih hraw]

theorem unescape_escapeSegment_append (raw rest : List Char) :
    unescape (escapeSegment raw ++ rest) = raw ++ unescape rest := by
  induction raw with
  | nil => rfl
  | cons c raw ih =>
    cases hc : isReserved c with
    | true =>
      simp only [escapeSegment_reserved hc, List.cons_append]
      rw [unescape_pair, ih]
    | false =>
      simp only [escapeSegment_plain hc, List.cons_append]
      rw [unescape_cons (ne_escape_of_not_reserved (by simp [hc])), ih]

theorem head_escapeSegment_ne (raw : List Char) :
    (escapeSegment raw).head? ≠ some separator := by
  cases raw with
  | nil => simp [escapeSegment]
  | cons c raw =>
    cases hc : isReserved c with
    | true =>
      rw [escapeSegment_reserved hc, List.head?_cons]
      exact fun h => absurd (Option.some.inj h) (by decide)
    | false =>
      rw [escapeSegment_plain hc, List.head?_cons]
      intro h
      rw [Option.some.inj h] at hc
      exact absurd hc (by decide)

namespace Piece

/-- The text of raw pieces, each of them escaped, with a separator between any two. -/
def spell (first : List Char) (more : List (List Char)) : List Char :=
  escapeSegment first ++ more.flatMap fun raw => separator :: escapeSegment raw

theorem spell_nil (first : List Char) : spell first [] = escapeSegment first :=
  List.append_nil _

theorem spell_cons (first next : List Char) (more : List (List Char)) :
    spell first (next :: more) = escapeSegment first ++ separator :: spell next more := by
  simp [spell]

theorem spell_append (first next : List Char) (more others : List (List Char)) :
    spell first (more ++ next :: others) = spell first more ++ separator :: spell next others := by
  simp [spell]

theorem spell_reserved {c : Char} (hc : isReserved c = true) (first : List Char)
    (more : List (List Char)) : spell (c :: first) more = escape :: c :: spell first more := by
  simp [spell, escapeSegment_reserved hc]

theorem spell_plain {c : Char} (hc : isReserved c = false) (first : List Char)
    (more : List (List Char)) : spell (c :: first) more = c :: spell first more := by
  simp [spell, escapeSegment_plain hc]

theorem spell_eq_nil_iff {first : List Char} {more : List (List Char)} :
    spell first more = [] ↔ first = [] ∧ more = [] := by
  cases more with
  | nil => simp [spell_nil, escapeSegment_eq_nil_iff]
  | cons next more => simp [spell_cons]

theorem head_spell_iff {first : List Char} {more : List (List Char)} :
    (spell first more).head? = some separator ↔ first = [] ∧ more ≠ [] := by
  by_cases hfirst : first = []
  · subst hfirst
    cases more with
    | nil => simp [spell_nil, escapeSegment]
    | cons next more => simp [spell_cons, escapeSegment]
  · have hhead := head_escapeSegment_ne first
    cases hescaped : escapeSegment first with
    | nil => exact absurd (escapeSegment_eq_nil_iff.1 hescaped) hfirst
    | cons c rest =>
      rw [hescaped] at hhead
      simpa [spell, hescaped, hfirst] using hhead

theorem wellEscaped_escapeSegment_append (raw rest : List Char) :
    wellEscaped (escapeSegment raw ++ rest) = wellEscaped rest := by
  induction raw with
  | nil => rfl
  | cons c raw ih =>
    cases hc : isReserved c with
    | true =>
      simp only [escapeSegment_reserved hc, List.cons_append]
      rw [wellEscaped_pair, hc, Bool.true_and, ih]
    | false =>
      simp only [escapeSegment_plain hc, List.cons_append]
      rw [wellEscaped_cons (ne_escape_of_not_reserved (by simp [hc])), ih]

theorem wellEscaped_spell (first : List Char) (more : List (List Char)) :
    wellEscaped (spell first more) = true := by
  induction more generalizing first with
  | nil =>
    rw [spell_nil]
    exact wellEscaped_escapeSegment first
  | cons next more ih =>
    rw [spell_cons, wellEscaped_escapeSegment_append, wellEscaped_cons (by decide)]
    exact ih next

theorem wellEscaped_spell_append (first : List Char) (more : List (List Char)) (rest : List Char) :
    wellEscaped (spell first more ++ separator :: rest) = wellEscaped rest := by
  induction more generalizing first with
  | nil => rw [spell_nil, wellEscaped_escapeSegment_append, wellEscaped_cons (by decide)]
  | cons next more ih =>
    rw [spell_cons, List.append_assoc, List.cons_append, wellEscaped_escapeSegment_append,
      wellEscaped_cons (by decide)]
    exact ih next

/-- Every well-escaped text spells some raw pieces. -/
theorem exists_spell {text : List Char} (h : wellEscaped text = true) :
    ∃ first more, text = spell first more := by
  induction text using wellEscaped.induct with
  | case1 => exact ⟨[], [], rfl⟩
  | case2 => simp [wellEscaped] at h
  | case3 d rest ih =>
    rw [wellEscaped_pair, Bool.and_eq_true] at h
    obtain ⟨first, more, rfl⟩ := ih h.2
    exact ⟨d :: first, more, (spell_reserved h.1 first more).symm⟩
  | case4 c rest hc ih =>
    rw [wellEscaped_cons hc] at h
    obtain ⟨first, more, rfl⟩ := ih h
    by_cases hs : c = separator
    · subst hs
      exact ⟨[], first :: more, (spell_cons [] first more).symm⟩
    · have hplain : isReserved c = false := by simp [isReserved, hs, hc]
      exact ⟨c :: first, more, (spell_plain hplain first more).symm⟩

theorem extendFirst_append (a b : List Char) (pieces : List Piece) :
    extendFirst (a ++ b) pieces = extendFirst a (extendFirst b pieces) := by
  cases pieces <;> simp [extendFirst]

theorem split_escapeSegment_append (raw rest : List Char) :
    split (escapeSegment raw ++ rest) = extendFirst (escapeSegment raw) (split rest) := by
  induction raw with
  | nil =>
    cases hrest : split rest with
    | nil => exact absurd hrest (split_ne_nil rest)
    | cons piece pieces => simp [escapeSegment, extendFirst, hrest]
  | cons c raw ih =>
    cases hc : isReserved c with
    | true =>
      simp only [escapeSegment_reserved hc, List.cons_append]
      rw [split_pair, ih, ← extendFirst_append]
      rfl
    | false =>
      simp only [escapeSegment_plain hc, List.cons_append]
      rw [split_cons hc, ih, ← extendFirst_append]
      rfl

theorem split_spell_append (first : List Char) (more : List (List Char)) (rest : List Char) :
    split (spell first more ++ separator :: rest) =
      (first :: more).map escapeSegment ++ split rest := by
  induction more generalizing first with
  | nil =>
    rw [spell_nil, split_escapeSegment_append, split_separator]
    simp [extendFirst]
  | cons next more ih =>
    rw [spell_cons, List.append_assoc, List.cons_append, split_escapeSegment_append,
      split_separator, ih]
    simp [extendFirst]

theorem split_spell (first : List Char) (more : List (List Char)) :
    split (spell first more) = (first :: more).map escapeSegment := by
  induction more generalizing first with
  | nil =>
    have hsplit := split_escapeSegment_append first []
    rw [List.append_nil] at hsplit
    rw [spell_nil, hsplit]
    simp [split, extendFirst]
  | cons next more ih =>
    rw [spell_cons, split_escapeSegment_append, split_separator, ih]
    simp [extendFirst]

theorem spell_injective {first next : List Char} {more others : List (List Char)}
    (h : spell first more = spell next others) : first = next ∧ more = others := by
  have hsplit := congrArg split h
  rw [split_spell, split_spell] at hsplit
  exact List.cons.inj ((List.map_inj_right fun _ _ => escapeSegment_injective).1 hsplit)

end Piece

end Keyspace
