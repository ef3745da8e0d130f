import Keyspace.Namespace
import Keyspace.Proofs.Name.Composition
import Keyspace.Proofs.Name.Hierarchy

namespace Keyspace

namespace Namespace

/-- The roots that select a namespace, where a user root may name its owner. -/
inductive Selects : String → Namespace → Prop
  | spec : Selects "spec" .spec
  | proc : Selects "proc" .proc
  | dir : Selects "dir" .dir
  | user : Selects "user" .user
  | ownedBy (owner : String) : Selects ("user:" ++ owner) .user
  | system : Selects "system" .system

variable {root : String} {space : Namespace}

theorem takeWhile_eq_user_iff :
    root.toList.takeWhile (· ≠ ':') = "user".toList ↔ Selects root .user := by
  constructor
  · intro howner
    have hroot := List.takeWhile_append_dropWhile (p := (· ≠ ':')) (l := root.toList)
    rw [howner] at hroot
    cases hrest : root.toList.dropWhile (· ≠ ':') with
    | nil =>
      rw [hrest, List.append_nil, String.toList_inj] at hroot
      rw [← hroot]
      exact .user
    | cons c owner =>
      have hcolon := List.head?_dropWhile_not (· ≠ ':') root.toList
      rw [hrest] at hcolon
      obtain rfl : c = ':' := by simpa using hcolon
      have htext : root = "user:" ++ String.ofList owner := by
        rw [← String.toList_inj, ← hroot, hrest, String.toList_append,
          String.toList_ofList (l := owner)]
        rfl
      rw [htext]
      exact .ownedBy _
  · intro hselects
    cases hselects with
    | user => rfl
    | ownedBy owner =>
      rw [String.toList_append]
      rfl

theorem selects_iff : Selects root space ↔ roots.lookup (dropOwner root) = some space := by
  constructor
  · intro hselects
    cases hselects with
    | ownedBy owner =>
      rw [dropOwner, if_pos (takeWhile_eq_user_iff.2 (.ownedBy owner))]
      rfl
    | spec | proc | dir | user | system => decide +kernel
  · intro hlookup
    obtain ⟨before, behind, hroots, -⟩ := List.lookup_eq_some_iff.1 hlookup
    have hmem : (dropOwner root, space) ∈ roots := by
      rw [hroots]
      exact List.mem_append_right before List.mem_cons_self
    unfold dropOwner at hmem
    split at hmem
    · rename_i howner
      obtain rfl : space = .user := by simpa [roots] using hmem
      exact takeWhile_eq_user_iff.1 howner
    · simp only [roots, List.mem_cons, Prod.mk.injEq, List.not_mem_nil, or_false] at hmem
      rcases hmem with ⟨rfl, rfl⟩ | ⟨rfl, rfl⟩ | ⟨rfl, rfl⟩ | ⟨rfl, rfl⟩ | ⟨rfl, rfl⟩
      · exact .spec
      · exact .proc
      · exact .dir
      · exact .user
      · exact .system

/-- A root lies in the namespace that it selects, and in the cascading one if it selects none. -/
theorem ofRoot_eq_iff :
    ofRoot root = space ↔
      Selects root space ∨ space = .cascading ∧ ∀ other, ¬Selects root other := by
  simp only [selects_iff]
  rw [ofRoot, Option.getD_eq_iff]
  constructor
  · rintro (hselected | ⟨hnone, rfl⟩)
    · exact .inl hselected
    · exact .inr ⟨rfl, Option.eq_none_iff_forall_ne_some.1 hnone⟩
  · rintro (hselected | ⟨rfl, hnone⟩)
    · exact .inl hselected
    · exact .inr ⟨Option.eq_none_iff_forall_ne_some.2 hnone, rfl⟩

theorem Selects.escape (h : Selects root space) : Selects (escapeText root) space := by
  cases h with
  | ownedBy owner =>
    rw [escapeText, String.toList_append, escapeSegment_append, String.ofList_append]
    exact .ownedBy _
  | spec => exact .spec
  | proc => exact .proc
  | dir => exact .dir
  | user => exact .user
  | system => exact .system

theorem Selects.unescape (h : Selects root space) : Selects (unescapeText root.toList) space := by
  have hword (word : String) (hplain : word.toList = escapeSegment word.toList) :
      unescapeText word.toList = word := by
    rw [hplain, unescapeText_escapeSegment, String.ofList_toList]
  cases h with
  | ownedBy owner =>
    have hplain : "user:".toList = escapeSegment "user:".toList := rfl
    rw [unescapeText, String.toList_append, hplain, unescape_escapeSegment_append,
      String.ofList_append]
    exact .ownedBy _
  | spec =>
    rw [hword "spec" rfl]
    exact .spec
  | proc =>
    rw [hword "proc" rfl]
    exact .proc
  | dir =>
    rw [hword "dir" rfl]
    exact .dir
  | user =>
    rw [hword "user" rfl]
    exact .user
  | system =>
    rw [hword "system" rfl]
    exact .system

theorem selects_escapeText_iff : Selects (escapeText root) space ↔ Selects root space := by
  refine ⟨fun h => ?_, Selects.escape⟩
  have hraw := h.unescape
  rwa [escapeText, String.toList_ofList, unescapeText_escapeSegment, String.ofList_toList] at hraw

theorem ofRoot_escapeText (root : String) : ofRoot (escapeText root) = ofRoot root := by
  rw [ofRoot_eq_iff]
  simp only [selects_escapeText_iff]
  exact ofRoot_eq_iff.1 rfl

end Namespace

namespace Name

open Piece

variable {text more root : String} {name base : Name}

theorem firstPiece_of_separator (h : text.toList.head? = some separator) :
    firstPiece text = [] := by
  obtain ⟨rest, htext⟩ := List.head?_eq_some_iff.1 h
  rw [firstPiece, htext, split_separator]
  rfl

theorem firstPiece_append (h : EscapesPaired text.toList) (more : String) :
    firstPiece (text ++ "/" ++ more) = firstPiece text := by
  obtain ⟨first, pieces, hspell⟩ := exists_spell h.wellEscaped
  rw [firstPiece, firstPiece, toList_append_separator, hspell, split_spell_append, split_spell]
  rfl

theorem firstPiece_of_parse (h : Name.parse text = .ok name) :
    firstPiece text = escapeSegment name.root.toList := by
  obtain ⟨first, pieces, -, rfl, -, rfl⟩ := spell_of_parse_eq_ok h
  rw [firstPiece_spell]
  exact congrArg escapeSegment String.toList_ofList.symm

/-- The first segment of a name is the unescaped text before the first unescaped separator. -/
theorem head_segments_of_parse (h : Name.parse text = .ok name) :
    name.segments.head? = some (unescapeText (firstPiece text)) := by
  obtain ⟨first, pieces, -, rfl, -, rfl⟩ := spell_of_parse_eq_ok h
  rw [firstPiece_spell, unescapeText_escapeSegment]
  rfl

theorem ofRoot_firstPiece (h : Name.parse text = .ok name) :
    Namespace.ofRoot (String.ofList (firstPiece text)) = name.space := by
  rw [firstPiece_of_parse h]
  exact Namespace.ofRoot_escapeText name.root

theorem space_eq_of_segments (hne : base.segments ≠ []) (h : base.segments <+: name.segments) :
    base.space = name.space := by
  obtain ⟨below, hbelow⟩ := h
  cases hsegments : base.segments with
  | nil => exact absurd hsegments hne
  | cons first rest =>
    rw [space, space, root, root, ← hbelow, hsegments]
    rfl

theorem Reachable.space_of_join {joined : Name} {segment : String} (h : name.Reachable)
    (hjoin : name.join segment = .ok joined) : joined.space = name.space := by
  refine (space_eq_of_segments h.isCanonical.1.ne_nil ⟨[segment], ?_⟩).symm
  exact (segments_of_join hjoin).symm

theorem exists_escapeSegment (hroot : firstPiece root = root.toList)
    (hpaired : EscapesPaired root.toList) : ∃ raw, root.toList = escapeSegment raw := by
  obtain ⟨raw, others, hspell⟩ := exists_spell hpaired.wellEscaped
  refine ⟨raw, ?_⟩
  rw [← hroot, firstPiece, hspell, split_spell]
  rfl

theorem parse_root_of_paired (hne : root ≠ "") (hroot : firstPiece root = root.toList)
    (hpaired : EscapesPaired root.toList) (h : Name.parse (root ++ "/" ++ more) = .ok name) :
    ∃ base segment, Name.parse root = .ok base ∧ segment ≠ "" ∧ base.segments = [segment] ∧
      base.segments <+: name.segments := by
  obtain ⟨first, pieces, -, htext, hrelative, rfl⟩ := spell_of_parse_eq_ok h
  obtain ⟨raw, hraw⟩ := exists_escapeSegment hroot hpaired
  rw [← spell_nil] at hraw
  -- the separator ends the first piece of the longer text, so that one is the root
  have hbegin : spell raw [] ++ separator :: more.toList = spell first pieces := by
    rw [← hraw, ← toList_append_separator, htext, String.toList_ofList]
  obtain ⟨raws, -, happend⟩ := append_of_spell_append hbegin
  obtain ⟨rfl, -⟩ := List.cons.inj happend
  have hspell : root = String.ofList (spell first []) := by
    rw [← hraw, String.ofList_toList]
  have hnotNil : spell first [] ≠ [] := by
    rw [← hraw]
    exact fun hnil => hne (String.toList_eq_nil_iff.1 hnil)
  have hfirst : String.ofList first ≠ "" := by
    intro hempty
    exact hnotNil (spell_eq_nil_iff.2 ⟨String.ofList_eq_empty_iff.1 hempty, rfl⟩)
  refine ⟨ofSegments [String.ofList first], String.ofList first, ?_, hfirst, rfl, ?_⟩
  · rw [hspell, parse_spell hnotNil, if_neg hrelative]
    rfl
  · exact ⟨_, rfl⟩

theorem paired_of_parse (h : Name.parse text = .ok name) : EscapesPaired text.toList := by
  obtain ⟨first, pieces, -, rfl⟩ := exists_spell_of_parse h
  rw [String.toList_ofList, escapesPaired_iff]
  exact wellEscaped_spell first pieces

end Name

end Keyspace
