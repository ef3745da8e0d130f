import Keyspace.Name.Relation
import Keyspace.Proofs.Name.Reachable

namespace Keyspace.Name

open Piece

/-- The second name goes on by these segments from the first, which is not the bare one. -/
def Deeper (base check : Name) (below : List String) : Prop :=
  base.escaped ≠ "/" ∧ check.segments = base.segments ++ below

theorem IsCanonical.below_append {segments others : List String} (h : IsCanonical segments)
    (happend : IsCanonical (segments ++ others)) : ∀ segment ∈ others, IsLevel segment := by
  obtain ⟨root, below, rfl⟩ := h.eq_cons
  intro segment hsegment
  exact happend.below segment (List.mem_append_right below hsegment)

theorem foldlM_join_eq_ok_iff {segments : List String} (h : IsCanonical segments)
    {others : List String} {joined : Name} :
    others.foldlM Name.join (ofSegments segments) = .ok joined ↔
      (∀ segment ∈ others, IsLevel segment) ∧ joined = ofSegments (segments ++ others) := by
  induction others generalizing segments with
  | nil =>
    rw [List.append_nil]
    constructor
    · intro hjoin
      exact ⟨fun _ hnil => absurd hnil List.not_mem_nil, (Except.ok.inj hjoin).symm⟩
    · rintro ⟨-, rfl⟩
      rfl
  | cons segment others ih =>
    rw [List.foldlM_cons, List.forall_mem_cons]
    cases hjoin : (ofSegments segments).join segment with
    | ok next =>
      have hlevel := join_eq_ok hjoin
      rw [join_ofSegments h hlevel] at hjoin
      cases hjoin
      have hnext := ih (h.append (List.forall_mem_singleton.2 hlevel))
      rw [List.append_assoc, List.singleton_append] at hnext
      simp only [hlevel, true_and]
      exact hnext
    | error error =>
      constructor
      · intro hcontra
        cases hcontra
      · rintro ⟨⟨hlevel, -⟩, -⟩
        rw [join_ofSegments h hlevel] at hjoin
        cases hjoin

theorem append_of_spell_append {first next : List Char} {more others : List (List Char)}
    {rest : List Char} (h : spell first more ++ separator :: rest = spell next others) :
    ∃ raws, raws ≠ [] ∧ next :: others = first :: more ++ raws := by
  have hsplit := congrArg split h
  rw [split_spell_append, split_spell] at hsplit
  obtain ⟨begun, raws, happend, hbegun, hraws⟩ := List.append_eq_map_iff.1 hsplit
  have hfirst : begun = first :: more :=
    (List.map_inj_right fun _ _ => escapeSegment_injective).1 hbegun
  refine ⟨raws, ?_, ?_⟩
  · rintro rfl
    exact split_ne_nil rest hraws.symm
  · rw [happend, hfirst]

theorem hasBelow_eq_true_iff {base check : Name} :
    base.hasBelow check = true ↔
      ∃ rest, base.escaped.toList ++ separator :: rest = check.escaped.toList := by
  have hseparator : base.escaped ++ "/" = base.escaped.push separator := rfl
  rw [hasBelow, List.isPrefixOf_iff_prefix, ← Text.utf8_append, Text.utf8_isPrefix_iff,
    String.toList_append]
  constructor
  · intro hprefix
    obtain ⟨rest, hrest⟩ := hprefix
    rw [List.append_assoc] at hrest
    exact ⟨rest, hrest⟩
  · intro hprefix
    obtain ⟨rest, hrest⟩ := hprefix
    refine ⟨rest, ?_⟩
    rw [List.append_assoc]
    exact hrest

theorem toList_escaped_ofSegments {root : String} {below : List String}
    (h : root :: below ≠ [""]) :
    (ofSegments (root :: below)).escaped.toList =
      spell root.toList (below.map String.toList) := by
  rw [ofSegments, render_cons h, String.toList_ofList]

theorem toList_escaped_bare : (ofSegments [""]).escaped.toList = spell [] [[]] := rfl

/-- A canonical name has no empty level, so it never goes on from a lone separator. -/
theorem not_hasBelow_bare {check : List String} (hcheck : IsCanonical check) :
    ¬(ofSegments [""]).hasBelow (ofSegments check) = true := by
  rw [hasBelow_eq_true_iff, toList_escaped_bare]
  intro hprefix
  obtain ⟨rest, hrest⟩ := hprefix
  by_cases hbare : check = [""]
  · subst hbare
    obtain ⟨raws, hraws, happend⟩ := append_of_spell_append (hrest.trans toList_escaped_bare)
    exact hraws (List.self_eq_append_right.1 happend)
  · obtain ⟨root, below, rfl⟩ := hcheck.eq_cons
    rw [toList_escaped_ofSegments hbare] at hrest
    obtain ⟨raws, -, happend⟩ := append_of_spell_append hrest
    obtain ⟨-, hbelow⟩ := List.cons.inj happend
    have hempty : [] ∈ below.map String.toList := by
      rw [hbelow]
      exact List.mem_cons_self
    obtain ⟨segment, hsegment, hnil⟩ := List.mem_map.1 hempty
    exact (hcheck.below segment hsegment).toList.1 hnil

theorem exists_append_of_hasBelow {root : String} {levels check : List String}
    (hbare : root :: levels ≠ [""]) (hcheck : IsCanonical check)
    (h : (ofSegments (root :: levels)).hasBelow (ofSegments check) = true) :
    ∃ below, below ≠ [] ∧ check = root :: levels ++ below := by
  rw [hasBelow_eq_true_iff, toList_escaped_ofSegments hbare] at h
  obtain ⟨rest, hrest⟩ := h
  obtain ⟨other, others, rfl⟩ := hcheck.eq_cons
  by_cases hbareCheck : other :: others = [""]
  · -- a lone separator is too short to go on from another text
    rw [hbareCheck, toList_escaped_bare] at hrest
    have hlength := congrArg List.length hrest
    have hpos := List.length_pos_iff.2 (spell_ne_nil_of_cons hbare)
    simp [spell, escapeSegment] at hlength hpos
    omega
  · rw [toList_escaped_ofSegments hbareCheck] at hrest
    obtain ⟨raws, hraws, happend⟩ := append_of_spell_append hrest
    have hmap : (other :: others).map String.toList =
        (root :: levels).map String.toList ++ raws := happend
    obtain ⟨begun, below, hcons, hbegun, hbelow⟩ := List.map_eq_append_iff.1 hmap
    have hroot : begun = root :: levels :=
      (List.map_inj_right fun _ _ => String.toList_inj.1).1 hbegun
    refine ⟨below, ?_, ?_⟩
    · rintro rfl
      exact hraws hbelow.symm
    · rw [hcons, hroot]

theorem hasBelow_ofSegments_append {root : String} {levels : List String}
    (hbare : root :: levels ≠ [""]) {below : List String} (h : below ≠ []) :
    (ofSegments (root :: levels)).hasBelow (ofSegments (root :: levels ++ below)) = true := by
  obtain ⟨next, more, rfl⟩ := List.exists_cons_of_ne_nil h
  have hlonger : root :: (levels ++ next :: more) ≠ [""] := by simp
  rw [hasBelow_eq_true_iff, toList_escaped_ofSegments hbare]
  refine ⟨spell next.toList (more.map String.toList), ?_⟩
  rw [List.cons_append, toList_escaped_ofSegments hlonger, List.map_append, List.map_cons,
    spell_append]

/-- The comparison of bytes agrees with the one of segments. -/
theorem hasBelow_ofSegments_iff {base check : List String} (hbase : IsCanonical base)
    (hcheck : IsCanonical check) :
    (ofSegments base).hasBelow (ofSegments check) = true ↔
      base ≠ [""] ∧ ∃ below, below ≠ [] ∧ check = base ++ below := by
  by_cases hbare : base = [""]
  · subst hbare
    simp [not_hasBelow_bare hcheck]
  obtain ⟨root, levels, rfl⟩ := hbase.eq_cons
  constructor
  · intro h
    exact ⟨hbare, exists_append_of_hasBelow hbare hcheck h⟩
  · rintro ⟨-, below, hne, rfl⟩
    exact hasBelow_ofSegments_append hbare hne

theorem Reachable.escaped_eq_separator_iff {name : Name} (h : name.Reachable) :
    name.escaped = "/" ↔ name.segments = [""] := by
  obtain ⟨hcanonical, hsegments⟩ := h.isCanonical
  rw [hsegments]
  exact render_eq_separator_iff hcanonical

theorem Reachable.escaped_eq_iff {a b : Name} (ha : a.Reachable) (hb : b.Reachable) :
    a.escaped = b.escaped ↔ a.segments = b.segments := by
  constructor
  · intro h
    have hread := ha.parse_escaped
    rw [h, hb.parse_escaped] at hread
    rw [Except.ok.inj hread]
  · intro h
    rw [ha.isCanonical.2, hb.isCanonical.2, h]

theorem Reachable.eq_iff_segments {a b : Name} (ha : a.Reachable) (hb : b.Reachable) :
    a = b ↔ a.segments = b.segments := by
  constructor
  · rintro rfl
    rfl
  · intro h
    rw [ha.isCanonical.2, hb.isCanonical.2, h]

theorem Reachable.hasBelow_iff {base check : Name} (hbase : base.Reachable)
    (hcheck : check.Reachable) :
    base.hasBelow check = true ↔ ∃ below, below ≠ [] ∧ Deeper base check below := by
  have hbare := hbase.escaped_eq_separator_iff
  obtain ⟨hcanonical, hsegments⟩ := hbase.isCanonical
  obtain ⟨hother, hothers⟩ := hcheck.isCanonical
  have hbelow := hasBelow_ofSegments_iff hcanonical hother
  rw [← hsegments, ← hothers] at hbelow
  rw [hbelow]
  constructor
  · intro hsegments
    obtain ⟨hroot, below, hne, happend⟩ := hsegments
    exact ⟨below, hne, fun h => hroot (hbare.1 h), happend⟩
  · intro hsegments
    obtain ⟨below, hne, hroot, happend⟩ := hsegments
    exact ⟨fun h => hroot (hbare.2 h), below, hne, happend⟩

theorem Reachable.foldlM_join_iff {base check : Name} (hbase : base.Reachable)
    (hcheck : check.Reachable) {below : List String} :
    below.foldlM Name.join base = .ok check ↔ check.segments = base.segments ++ below := by
  obtain ⟨hcanonical, hsegments⟩ := hbase.isCanonical
  obtain ⟨hother, hothers⟩ := hcheck.isCanonical
  have hjoin := @foldlM_join_eq_ok_iff _ hcanonical below check
  rw [← hsegments] at hjoin
  rw [hjoin]
  constructor
  · rintro ⟨-, rfl⟩
    rfl
  · intro happend
    refine ⟨hcanonical.below_append ?_, ?_⟩
    · rw [← happend]
      exact hother
    · rw [← happend]
      exact hothers

theorem Reachable.hasDirectlyBelow_iff {base check : Name} (hbase : base.Reachable)
    (hcheck : check.Reachable) :
    base.hasDirectlyBelow check = true ↔ ∃ segment, Deeper base check [segment] := by
  rw [hasDirectlyBelow, Bool.and_eq_true, hbase.hasBelow_iff hcheck, beq_iff_eq]
  constructor
  · intro hboth
    obtain ⟨⟨below, -, hroot, happend⟩, hlength⟩ := hboth
    rw [happend, List.length_append, Nat.add_left_cancel_iff] at hlength
    obtain ⟨segment, rfl⟩ := List.length_eq_one_iff.1 hlength
    exact ⟨segment, hroot, happend⟩
  · intro hdeeper
    obtain ⟨segment, hroot, happend⟩ := hdeeper
    refine ⟨⟨[segment], List.cons_ne_nil _ _, hroot, happend⟩, ?_⟩
    rw [happend, List.length_append, List.length_singleton]

theorem hasBelow_of_escaped_eq {base check : Name} (h : base.escaped = check.escaped) :
    base.hasBelow check = false := by
  rw [← Bool.not_eq_true, hasBelow_eq_true_iff, h]
  intro hprefix
  obtain ⟨rest, hrest⟩ := hprefix
  exact List.cons_ne_nil _ _ (List.self_eq_append_right.1 hrest.symm)

theorem hasDirectlyBelow_of_not_hasBelow {base check : Name}
    (h : base.hasBelow check = false) : base.hasDirectlyBelow check = false := by
  rw [hasDirectlyBelow, h, Bool.false_and]

theorem relation_cases (base check : Name) :
    (base.relation check = .same ∧ base.escaped = check.escaped ∧
      base.hasBelow check = false ∧ base.hasDirectlyBelow check = false) ∨
    (base.relation check = .directChild ∧ base.escaped ≠ check.escaped ∧
      base.hasBelow check = true ∧ base.hasDirectlyBelow check = true) ∨
    (base.relation check = .descendant ∧ base.escaped ≠ check.escaped ∧
      base.hasBelow check = true ∧ base.hasDirectlyBelow check = false) ∨
    (base.relation check =
        (if base.sharesHierarchy check then .sameHierarchyUnrelated else .unrelated) ∧
      base.escaped ≠ check.escaped ∧
      base.hasBelow check = false ∧ base.hasDirectlyBelow check = false) := by
  by_cases hsame : base.escaped = check.escaped
  · have hbelow := hasBelow_of_escaped_eq hsame
    exact .inl ⟨if_pos hsame, hsame, hbelow, hasDirectlyBelow_of_not_hasBelow hbelow⟩
  cases hbelow : base.hasBelow check with
  | false =>
    have hdirect := hasDirectlyBelow_of_not_hasBelow hbelow
    exact .inr (.inr (.inr ⟨by simp [relation, hsame, hdirect, hbelow], hsame, rfl, hdirect⟩))
  | true =>
    cases hdirect : base.hasDirectlyBelow check with
    | true => exact .inr (.inl ⟨by simp [relation, hsame, hdirect], hsame, rfl, rfl⟩)
    | false =>
      exact .inr (.inr (.inl ⟨by simp [relation, hsame, hdirect, hbelow], hsame, rfl, rfl⟩))

theorem isBelow_relation (base check : Name) :
    (base.relation check).isBelow = base.hasBelow check := by
  rcases relation_cases base check with h | h | h | h
  all_goals
    obtain ⟨hrelation, -, hbelow, -⟩ := h
    rw [hrelation, hbelow]
  · rfl
  · rfl
  · rfl
  · split <;> rfl

theorem isSameOrBelow_relation (base check : Name) :
    (base.relation check).isSameOrBelow = base.hasSameOrBelow check := by
  rw [hasSameOrBelow]
  rcases relation_cases base check with h | h | h | h
  all_goals
    obtain ⟨hrelation, hsame, hbelow, -⟩ := h
    rw [hrelation, hbelow]
  · simp [hsame, Relation.isSameOrBelow]
  · rfl
  · rfl
  · rw [beq_eq_false_iff_ne.2 hsame]
    split <;> rfl

theorem relation_eq_same_iff (base check : Name) :
    base.relation check = .same ↔ base.escaped = check.escaped := by
  rcases relation_cases base check with h | h | h | h
  all_goals
    obtain ⟨hrelation, hsame, -, -⟩ := h
    rw [hrelation]
  · simp [hsame]
  · simp [hsame]
  · simp [hsame]
  · split <;> simp [hsame]

theorem relation_eq_directChild_iff (base check : Name) :
    base.relation check = .directChild ↔ base.hasDirectlyBelow check = true := by
  rcases relation_cases base check with h | h | h | h
  all_goals
    obtain ⟨hrelation, -, -, hdirect⟩ := h
    rw [hrelation, hdirect]
  · simp
  · simp
  · simp
  · split <;> simp

theorem relation_eq_descendant_iff (base check : Name) :
    base.relation check = .descendant ↔
      base.hasBelow check = true ∧ ¬base.hasDirectlyBelow check = true := by
  rcases relation_cases base check with h | h | h | h
  all_goals
    obtain ⟨hrelation, -, hbelow, hdirect⟩ := h
    rw [hrelation, hbelow, hdirect]
  · simp
  · simp
  · simp
  · split <;> simp

theorem Reachable.relation_eq_descendant_iff {base check : Name} (hbase : base.Reachable)
    (hcheck : check.Reachable) :
    base.relation check = .descendant ↔
      ∃ below, 2 ≤ below.length ∧ Deeper base check below := by
  rw [Name.relation_eq_descendant_iff, hbase.hasBelow_iff hcheck, hbase.hasDirectlyBelow_iff hcheck]
  constructor
  · intro hboth
    obtain ⟨⟨below, hne, hdeeper⟩, hdirect⟩ := hboth
    refine ⟨below, ?_, hdeeper⟩
    have hpos := List.length_pos_iff.2 hne
    have hlength : below.length ≠ 1 := by
      intro hone
      obtain ⟨segment, rfl⟩ := List.length_eq_one_iff.1 hone
      exact hdirect ⟨segment, hdeeper⟩
    omega
  · intro hexists
    obtain ⟨below, hlength, hdeeper⟩ := hexists
    refine ⟨⟨below, List.length_pos_iff.1 (by omega), hdeeper⟩, ?_⟩
    intro hdirect
    obtain ⟨segment, -, happend⟩ := hdirect
    have hsegments := hdeeper.2.symm.trans happend
    rw [List.append_cancel_left hsegments] at hlength
    simp at hlength

end Keyspace.Name
