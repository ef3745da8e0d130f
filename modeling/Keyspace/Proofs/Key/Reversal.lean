import Keyspace.Proofs.Key.Hierarchy

namespace Keyspace

namespace Namespace

variable {a b : Namespace}

/-- The relation of keys of which neither is at or below the other. -/
def apart : Namespace → Namespace → Relation
  | .user, .user | .system, .system => .sameHierarchyUnrelated
  | _, _ => .unrelated

theorem apart_comm (a b : Namespace) : a.apart b = b.apart a := by
  cases a with
  | user | system => cases b <;> rfl
  | cascading | spec | proc | dir => cases b <;> rfl

theorem apart_of_ne (h : a ≠ b) : a.apart b = .unrelated := by
  unfold apart
  split
  · exact absurd rfl h
  · exact absurd rfl h
  · rfl

theorem apart_self (space : Namespace) :
    space.apart space =
      if space = .user ∨ space = .system then .sameHierarchyUnrelated else .unrelated := by
  cases space <;> rfl

end Namespace

namespace Name

variable {a b : Name}

theorem sharesHierarchy_iff :
    a.sharesHierarchy b = true ↔ a.space = b.space ∧ (a.space = .user ∨ a.space = .system) := by
  rw [sharesHierarchy, Bool.and_eq_true, Bool.or_eq_true, beq_iff_eq, beq_iff_eq, beq_iff_eq]

theorem ite_sharesHierarchy (a b : Name) :
    (if a.sharesHierarchy b then Relation.sameHierarchyUnrelated else .unrelated) =
      a.space.apart b.space := by
  by_cases hspace : a.space = b.space
  · simp only [sharesHierarchy_iff, hspace, true_and, Namespace.apart_self]
  · simp only [sharesHierarchy_iff, hspace, false_and, if_false, Namespace.apart_of_ne hspace]

theorem relation_of_not_sameOrBelow (h : a.hasSameOrBelow b = false) :
    a.relation b = a.space.apart b.space := by
  rw [← ite_sharesHierarchy]
  rw [← isSameOrBelow_relation] at h
  rcases relation_cases a b with ⟨hrelation, -⟩ | ⟨hrelation, -⟩ | ⟨hrelation, -⟩ | ⟨hrelation, -⟩
  · rw [hrelation] at h
    cases h
  · rw [hrelation] at h
    cases h
  · rw [hrelation] at h
    cases h
  · exact hrelation

theorem relation_of_hasBelow (h : a.hasBelow b = true) :
    a.relation b = .directChild ∨ a.relation b = .descendant := by
  rw [← isBelow_relation] at h
  cases hrelation : a.relation b with
  | directChild => exact .inl rfl
  | descendant => exact .inr rfl
  | invalid | same | sameHierarchyUnrelated | unrelated =>
    rw [hrelation] at h
    cases h

theorem hasSameOrBelow_eq_false_iff :
    a.hasSameOrBelow b = false ↔ a.hasBelow b = false ∧ a.escaped ≠ b.escaped := by
  rw [hasSameOrBelow, Bool.or_eq_false_iff, beq_eq_false_iff_ne]

theorem not_sameOrBelow_of_hasBelow (h : a.hasBelow b = true) : b.hasSameOrBelow a = false := by
  apply hasSameOrBelow_eq_false_iff.2
  refine ⟨hasBelow_asymm h, ?_⟩
  intro hsame
  rw [hasBelow_of_escaped_eq hsame.symm] at h
  cases h

theorem relation_both_ways (a b : Name) :
    (a.relation b = .same ∧ b.relation a = .same) ∨
    (a.hasBelow b = true ∧ b.relation a = a.space.apart b.space) ∨
    (b.hasBelow a = true ∧ a.relation b = a.space.apart b.space) ∨
    (a.relation b = a.space.apart b.space ∧ b.relation a = a.space.apart b.space) := by
  have hback (h : b.hasSameOrBelow a = false) : b.relation a = a.space.apart b.space := by
    rw [Namespace.apart_comm]
    exact relation_of_not_sameOrBelow h
  by_cases hsame : a.escaped = b.escaped
  · exact .inl ⟨if_pos hsame, if_pos hsame.symm⟩
  cases hab : a.hasBelow b with
  | true => exact .inr (.inl ⟨rfl, hback (not_sameOrBelow_of_hasBelow hab)⟩)
  | false =>
    have hforth := relation_of_not_sameOrBelow (hasSameOrBelow_eq_false_iff.2 ⟨hab, hsame⟩)
    cases hba : b.hasBelow a with
    | true => exact .inr (.inr (.inl ⟨rfl, hforth⟩))
    | false =>
      have hapart := hasSameOrBelow_eq_false_iff.2 ⟨hba, Ne.symm hsame⟩
      exact .inr (.inr (.inr ⟨hforth, hback hapart⟩))

/-- What is below a name is in its namespace, so the way back up depends on that one alone. -/
theorem Reachable.relation_back (ha : a.Reachable) (hb : b.Reachable)
    (h : (a.relation b).isBelow = true) : b.relation a = a.space.apart a.space := by
  rw [isBelow_relation] at h
  have hsame : a.hasSameOrBelow b = true := by
    rw [hasSameOrBelow, h, Bool.true_or]
  rw [relation_of_not_sameOrBelow (not_sameOrBelow_of_hasBelow h),
    ha.space_of_sameOrBelow hb hsame]

theorem Reachable.relation_of_space_ne (ha : a.Reachable) (hb : b.Reachable)
    (h : a.space ≠ b.space) : a.relation b = .unrelated := by
  rw [← Namespace.apart_of_ne h]
  apply relation_of_not_sameOrBelow
  rw [← Bool.not_eq_true]
  intro hsame
  exact h (ha.space_of_sameOrBelow hb hsame)

end Name

namespace Key

variable {a b : Key}

/-- Of two keys one is at or below the other, or the namespaces alone tell their relation. -/
theorem IsNamed.relation_from_both_sides (ha : a.IsNamed) (hb : b.IsNamed) :
    ∃ x y, a.space = .ok x ∧ b.space = .ok y ∧
      (a.relation b, b.relation a) ∈
        [(.same, .same), (.directChild, x.apart y), (.descendant, x.apart y),
          (x.apart y, .directChild), (x.apart y, .descendant), (x.apart y, x.apart y)] ∧
      ((a.relation b).isBelow = true → b.relation a = x.apart x) ∧
      ((b.relation a).isBelow = true → a.relation b = y.apart y) ∧
      (x ≠ y → a.relation b = .unrelated ∧ b.relation a = .unrelated) := by
  obtain ⟨base, hbase, hbaseReachable⟩ := ha
  obtain ⟨check, hcheck, hcheckReachable⟩ := hb
  refine ⟨base.space, check.space, space_of_name hbase, space_of_name hcheck, ?_⟩
  rw [relation_of_names hbase hcheck, relation_of_names hcheck hbase]
  refine ⟨?_, hbaseReachable.relation_back hcheckReachable,
    hcheckReachable.relation_back hbaseReachable, ?_⟩
  · rcases Name.relation_both_ways base check with
      ⟨hforth, hback⟩ | ⟨hbelow, hback⟩ | ⟨hbelow, hforth⟩ | ⟨hforth, hback⟩
    · simp [hforth, hback]
    · rcases Name.relation_of_hasBelow hbelow with hforth | hforth
      · simp [hforth, hback]
      · simp [hforth, hback]
    · rcases Name.relation_of_hasBelow hbelow with hback | hback
      · simp [hforth, hback]
      · simp [hforth, hback]
    · simp [hforth, hback]
  · intro hspace
    exact ⟨hbaseReachable.relation_of_space_ne hcheckReachable hspace,
      hcheckReachable.relation_of_space_ne hbaseReachable (Ne.symm hspace)⟩

theorem relations_of_owned_root :
    let upper : Key := { name := some ⟨"user:a\\/b", ["user:a/b"]⟩ }
    let lower : Key := { name := some ⟨"user:a\\/b/.x", ["user:a/b", ".x"]⟩ }
    let lookalike : Key := { name := some ⟨"system:a", ["system:a"]⟩ }
    upper.IsNamed ∧ lower.IsNamed ∧ lookalike.IsNamed ∧ upper.relation lower = .directChild ∧
      lower.relation upper = .sameHierarchyUnrelated ∧ upper.relation lookalike = .unrelated ∧
      lookalike.relation upper = .unrelated := by
  intro upper lower lookalike
  have hroot : Name.parse "user:a\\/b/.." = .ok ⟨"user:a\\/b", ["user:a/b"]⟩ := by decide +kernel
  have hjoin : Name.join ⟨"user:a\\/b", ["user:a/b"]⟩ ".x" =
      .ok ⟨"user:a\\/b/.x", ["user:a/b", ".x"]⟩ := by
    decide +kernel
  have hother : Name.parse "system:a/" = .ok ⟨"system:a", ["system:a"]⟩ := by decide +kernel
  have hupper : upper.IsNamed := ⟨_, rfl, .parse hroot⟩
  have hlower : lower.IsNamed := ⟨_, rfl, .join (.parse hroot) hjoin⟩
  have hlookalike : lookalike.IsNamed := ⟨_, rfl, .parse hother⟩
  have hchild : upper.relation lower = .directChild := by decide +kernel
  have hspace : upper.space = .ok .user := by decide +kernel
  have hcascading : lookalike.space = .ok .cascading := by decide +kernel
  obtain ⟨space, -, hx, -, -, hback, -⟩ := hupper.relation_from_both_sides hlower
  obtain rfl := Except.ok.inj (hx.symm.trans hspace)
  obtain ⟨space, other, hx, hy, -, -, -, hunrelated⟩ :=
    hupper.relation_from_both_sides hlookalike
  obtain rfl := Except.ok.inj (hx.symm.trans hspace)
  obtain rfl := Except.ok.inj (hy.symm.trans hcascading)
  exact ⟨hupper, hlower, hlookalike, hchild, hback (by rw [hchild]; rfl), hunrelated (by decide)⟩

end Key

end Keyspace
