import Keyspace.Proofs.Name.Root

namespace Keyspace.Name

variable {a b c : Name}

theorem hasBelow_irrefl (name : Name) : name.hasBelow name = false :=
  hasBelow_of_escaped_eq rfl

theorem hasBelow_trans (hab : a.hasBelow b = true) (hbc : b.hasBelow c = true) :
    a.hasBelow c = true := by
  rw [hasBelow_eq_true_iff] at hab hbc ⊢
  obtain ⟨rest, hrest⟩ := hab
  obtain ⟨more, hmore⟩ := hbc
  refine ⟨rest ++ separator :: more, ?_⟩
  rw [← List.cons_append, ← List.append_assoc, hrest, hmore]

theorem hasBelow_asymm (hab : a.hasBelow b = true) : b.hasBelow a = false := by
  rw [← Bool.not_eq_true]
  intro hba
  have hself := hasBelow_trans hab hba
  rw [hasBelow_irrefl] at hself
  cases hself

/-- But for the bare root, the names at or below one are those that begin with its segments. -/
theorem Reachable.hasSameOrBelow_iff (ha : a.Reachable) (hb : b.Reachable) :
    a.hasSameOrBelow b = true ↔
      a.segments <+: b.segments ∧ (a.escaped = "/" → a.segments = b.segments) := by
  rw [hasSameOrBelow, Bool.or_eq_true, beq_iff_eq, ha.hasBelow_iff hb, ha.escaped_eq_iff hb]
  constructor
  · rintro (⟨below, -, hroot, happend⟩ | hsame)
    · exact ⟨⟨below, happend.symm⟩, fun hbare => absurd hbare hroot⟩
    · exact ⟨hsame ▸ List.prefix_rfl, fun _ => hsame⟩
  · rintro ⟨⟨below, happend⟩, hbare⟩
    by_cases hnil : below = []
    · subst hnil
      rw [List.append_nil] at happend
      exact .inr happend
    · refine .inl ⟨below, hnil, fun hroot => hnil ?_, happend.symm⟩
      rw [← hbare hroot] at happend
      exact List.self_eq_append_right.1 happend.symm

theorem Reachable.hasBelow_of_ne (ha : a.Reachable) (hb : b.Reachable)
    (h : a.hasSameOrBelow b = true) (hne : a ≠ b) : a.hasBelow b = true := by
  rw [hasSameOrBelow, Bool.or_eq_true, beq_iff_eq] at h
  rcases h with hbelow | hsame
  · exact hbelow
  · exact absurd ((ha.eq_iff_segments hb).2 ((ha.escaped_eq_iff hb).1 hsame)) hne

theorem segments_antisymm (hab : a.segments <+: b.segments) (hba : b.segments <+: a.segments) :
    a.segments = b.segments :=
  hab.eq_of_length (Nat.le_antisymm hab.length_le hba.length_le)

theorem Reachable.hasSameOrBelow_antisymm (ha : a.Reachable) (hb : b.Reachable)
    (hab : a.hasSameOrBelow b = true) (hba : b.hasSameOrBelow a = true) : a = b :=
  (ha.eq_iff_segments hb).2 (segments_antisymm ((ha.hasSameOrBelow_iff hb).1 hab).1
    ((hb.hasSameOrBelow_iff ha).1 hba).1)

theorem Reachable.hasSameOrBelow_of_between (ha : a.Reachable) (hb : b.Reachable)
    (hc : c.Reachable) (hac : a.hasSameOrBelow c = true) (hab : a.segments <+: b.segments)
    (hbc : b.segments <+: c.segments) : a.hasSameOrBelow b = true := by
  obtain ⟨-, hbare⟩ := (ha.hasSameOrBelow_iff hc).1 hac
  refine (ha.hasSameOrBelow_iff hb).2 ⟨hab, fun hroot => segments_antisymm hab ?_⟩
  rw [hbare hroot]
  exact hbc

/-- Of two names at or above a third one, either is at or above the other. -/
theorem Reachable.comparable (ha : a.Reachable) (hb : b.Reachable) (hc : c.Reachable)
    (hac : a.hasSameOrBelow c = true) (hbc : b.hasSameOrBelow c = true) :
    a = b ∨ a.hasBelow b = true ∨ b.hasBelow a = true := by
  by_cases hsame : a = b
  · exact .inl hsame
  obtain ⟨hleft, -⟩ := (ha.hasSameOrBelow_iff hc).1 hac
  obtain ⟨hright, -⟩ := (hb.hasSameOrBelow_iff hc).1 hbc
  rcases List.prefix_or_prefix_of_prefix hleft hright with hab | hba
  · have hbelow := ha.hasSameOrBelow_of_between hb hc hac hab hright
    exact .inr (.inl (ha.hasBelow_of_ne hb hbelow hsame))
  · have hbelow := hb.hasSameOrBelow_of_between ha hc hbc hba hleft
    exact .inr (.inr (hb.hasBelow_of_ne ha hbelow (Ne.symm hsame)))

theorem Reachable.exists_child (ha : a.Reachable) (hb : b.Reachable) {segment : String}
    {below : List String} (h : Deeper a b (segment :: below)) :
    ∃ child, child.Reachable ∧ Deeper a child [segment] ∧ Deeper child b below := by
  obtain ⟨hroot, happend⟩ := h
  have hjoined := (ha.foldlM_join_iff hb).2 happend
  rw [List.foldlM_cons] at hjoined
  cases hchild : a.join segment with
  | error error =>
    rw [hchild] at hjoined
    cases hjoined
  | ok child =>
    rw [hchild] at hjoined
    have hreachable := ha.join hchild
    have hsegments := segments_of_join hchild
    refine ⟨child, hreachable, ⟨hroot, hsegments⟩, ?_,
      (hreachable.foldlM_join_iff hb).1 hjoined⟩
    obtain ⟨root, levels, hcons⟩ := ha.isCanonical.1.eq_cons
    rw [Ne, hreachable.escaped_eq_separator_iff, hsegments, hcons]
    simp

/-- A name is a descendant, and no child, exactly when it lies below a child. -/
theorem Reachable.relation_eq_descendant_iff_child (ha : a.Reachable) (hb : b.Reachable) :
    a.relation b = .descendant ↔
      ∃ child : Name, child.Reachable ∧ a.relation child = .directChild ∧
        child.hasBelow b = true := by
  rw [ha.relation_eq_descendant_iff hb]
  constructor
  · rintro ⟨below, hlength, hdeeper⟩
    match below, hlength with
    | segment :: next :: rest, _ =>
      obtain ⟨child, hchild, hdirect, hbelow⟩ := ha.exists_child hb hdeeper
      refine ⟨child, hchild, ?_, ?_⟩
      · exact (relation_eq_directChild_iff a child).2
          ((ha.hasDirectlyBelow_iff hchild).2 ⟨segment, hdirect⟩)
      · exact (hchild.hasBelow_iff hb).2 ⟨next :: rest, List.cons_ne_nil _ _, hbelow⟩
  · rintro ⟨child, hchild, hdirect, hbelow⟩
    rw [relation_eq_directChild_iff, ha.hasDirectlyBelow_iff hchild] at hdirect
    obtain ⟨segment, hroot, hsegments⟩ := hdirect
    obtain ⟨below, hne, -, happend⟩ := (hchild.hasBelow_iff hb).1 hbelow
    have hpos := List.length_pos_iff.2 hne
    refine ⟨segment :: below, ?_, hroot, ?_⟩
    · rw [List.length_cons]
      omega
    · rw [happend, hsegments, List.append_assoc]
      rfl

theorem Reachable.space_of_sameOrBelow (ha : a.Reachable) (hb : b.Reachable)
    (h : a.hasSameOrBelow b = true) : a.space = b.space :=
  space_eq_of_segments ha.isCanonical.1.ne_nil ((ha.hasSameOrBelow_iff hb).1 h).1

end Keyspace.Name
