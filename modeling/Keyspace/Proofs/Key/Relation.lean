import Keyspace.Key.Basic
import Keyspace.Proofs.Name.Hierarchy

namespace Keyspace.Key

/-- The name of the key, if it has one, was read from a text or made from such a name. -/
def NameReachable (key : Key) : Prop :=
  ∀ name ∈ key.name, name.Reachable

/-- A key is below another one exactly when its segments are those of the other and some more. -/
theorem relation_iff_segments {base check : Key} (hbase : base.NameReachable)
    (hcheck : check.NameReachable) :
    (∀ b c : Name, base.name = some b → check.name = some c →
      (base.hasBelow check = .ok true ↔ ∃ below, below ≠ [] ∧ b.Deeper c below) ∧
      (base.hasBelow check = .ok true ↔
        b.escaped ≠ "/" ∧ ∃ below, below ≠ [] ∧ below.foldlM Name.join b = .ok c) ∧
      (base.hasDirectlyBelow check = .ok true ↔ ∃ segment, b.Deeper c [segment]) ∧
      (base.hasSameOrBelow check = .ok true ↔
        base.hasBelow check = .ok true ∨ b.segments = c.segments) ∧
      (base.relation check = .same ↔ b.segments = c.segments) ∧
      (base.relation check = .directChild ↔ ∃ segment, b.Deeper c [segment]) ∧
      (base.relation check = .descendant ↔ ∃ below, 2 ≤ below.length ∧ b.Deeper c below) ∧
      base.hasBelow check = .ok (base.relation check).isBelow ∧
      base.hasSameOrBelow check = .ok (base.relation check).isSameOrBelow) ∧
    (base.relation check = .invalid ↔ base.name = none ∨ check.name = none) ∧
    (base.hasBelow check = .error .nameless ↔ base.name = none ∨ check.name = none) ∧
    (base.hasSameOrBelow check = .error .nameless ↔ base.name = none ∨ check.name = none) ∧
    (base.hasDirectlyBelow check = .error .nameless ↔ base.name = none ∨ check.name = none) := by
  refine ⟨?_, relation_eq_invalid_iff base check, askNames_eq_nameless_iff _ base check,
    askNames_eq_nameless_iff _ base check, askNames_eq_nameless_iff _ base check⟩
  intro b c hb hc
  have hbReachable := hbase b hb
  have hcReachable := hcheck c hc
  have hbelow : base.hasBelow check = .ok (b.hasBelow c) := askNames_of_names _ hb hc
  have hdirect : base.hasDirectlyBelow check = .ok (b.hasDirectlyBelow c) :=
    askNames_of_names _ hb hc
  have hsame : base.hasSameOrBelow check = .ok (b.hasSameOrBelow c) := askNames_of_names _ hb hc
  rw [hbelow, hdirect, hsame, relation_of_names hb hc, Except.ok.injEq, Except.ok.injEq,
    Except.ok.injEq, Except.ok.injEq, Except.ok.injEq]
  have hdeeper := hbReachable.hasBelow_iff hcReachable
  have hescaped := hbReachable.escaped_eq_iff hcReachable
  refine ⟨hdeeper, ?_, hbReachable.hasDirectlyBelow_iff hcReachable, ?_, ?_, ?_,
    hbReachable.relation_eq_descendant_iff hcReachable, (Name.isBelow_relation b c).symm,
    (Name.isSameOrBelow_relation b c).symm⟩
  · rw [hdeeper]
    constructor
    · intro hsegments
      obtain ⟨below, hne, hroot, happend⟩ := hsegments
      exact ⟨hroot, below, hne, (hbReachable.foldlM_join_iff hcReachable).2 happend⟩
    · intro hjoined
      obtain ⟨hroot, below, hne, hjoin⟩ := hjoined
      exact ⟨below, hne, hroot, (hbReachable.foldlM_join_iff hcReachable).1 hjoin⟩
  · rw [Name.hasSameOrBelow, Bool.or_eq_true, beq_iff_eq, hescaped]
  · rw [Name.relation_eq_same_iff, hescaped]
  · rw [Name.relation_eq_directChild_iff, hbReachable.hasDirectlyBelow_iff hcReachable]

/-- A root that is an escaped separator, and a key two levels below it. -/
theorem descendant_of_escaped_root :
    let base : Key := { name := some ⟨"\\/", ["/"]⟩ }
    let check : Key := { name := some ⟨"\\//a\\/b/..x", ["/", "a/b", "..x"]⟩ }
    base.NameReachable ∧ check.NameReachable ∧ base.relation check = .descendant := by
  intro base check
  have hbase : base.NameReachable := by
    intro name hname
    cases hname
    have hread : Name.parse "\\//./.." = .ok ⟨"\\/", ["/"]⟩ := by decide +kernel
    exact .parse hread
  have hcheck : check.NameReachable := by
    intro name hname
    cases hname
    have hread : Name.parse "\\///a\\/b/" = .ok ⟨"\\//a\\/b", ["/", "a/b"]⟩ := by
      decide +kernel
    have hjoin : Name.join ⟨"\\//a\\/b", ["/", "a/b"]⟩ "..x" =
        .ok ⟨"\\//a\\/b/..x", ["/", "a/b", "..x"]⟩ := by
      decide +kernel
    exact .join (.parse hread) hjoin
  obtain ⟨hnamed, -⟩ := relation_iff_segments hbase hcheck
  obtain ⟨-, -, -, -, -, -, hdescendant, -⟩ := hnamed _ _ rfl rfl
  refine ⟨hbase, hcheck, hdescendant.2 ⟨["a/b", "..x"], Nat.le_refl 2, ?_, rfl⟩⟩
  decide

end Keyspace.Key
