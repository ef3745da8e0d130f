import Keyspace.Proofs.Key.Diff
import Keyspace.Proofs.Key.Hierarchy

namespace Keyspace

theorem Name.Reachable.escaped_ne_empty {name : Name} (h : name.Reachable) : name.escaped ≠ "" := by
  intro hempty
  have hread := h.parse_escaped
  rw [hempty, Name.parse, if_pos rfl] at hread
  cases hread

theorem Name.hasSameOrBelow_self (name : Name) : name.hasSameOrBelow name = true := by
  rw [hasSameOrBelow, beq_self_eq_true, Bool.or_true]

theorem Name.Reachable.eq_iff_hasSameOrBelow {x y : Name} (hx : x.Reachable) (hy : y.Reachable) :
    x = y ↔ x.hasSameOrBelow y = true ∧ y.hasSameOrBelow x = true := by
  constructor
  · intro hsame
    rw [hsame]
    exact ⟨y.hasSameOrBelow_self, y.hasSameOrBelow_self⟩
  · intro hboth
    exact hx.hasSameOrBelow_antisymm hy hboth.1 hboth.2

namespace Key

variable {a b : Key} {x y : Name}

theorem nameText_of_name (h : a.name = some x) : a.nameText = x.escaped := by
  rw [nameText, h]
  rfl

theorem nameText_of_nameless (h : a.name = none) : a.nameText = "" := by
  rw [nameText, h]
  rfl

theorem requireName_of_name (h : a.name = some x) : a.requireName = .ok x := by
  rw [requireName, h]

theorem requireName_of_nameless (h : a.name = none) : a.requireName = .error .nameless := by
  rw [requireName, h]

theorem requireName_eq_iff : a.requireName = b.requireName ↔ a.name = b.name := by
  constructor
  · intro h
    cases ha : a.name with
    | none =>
      cases hb : b.name with
      | none => rfl
      | some y =>
        rw [requireName_of_nameless ha, requireName_of_name hb] at h
        cases h
    | some x =>
      cases hb : b.name with
      | none =>
        rw [requireName_of_name ha, requireName_of_nameless hb] at h
        cases h
      | some y =>
        rw [requireName_of_name ha, requireName_of_name hb] at h
        rw [Except.ok.inj h]
  · intro h
    rw [requireName, requireName, h]

theorem NameReachable.nameText_ne_empty (ha : a.NameReachable) (h : a.name = some x) :
    a.nameText ≠ "" := by
  rw [nameText_of_name h]
  exact (ha x h).escaped_ne_empty

theorem NameReachable.nameText_eq_iff (ha : a.NameReachable) (hb : b.NameReachable) :
    a.nameText = b.nameText ↔ a.name = b.name := by
  constructor
  · intro htext
    cases hx : a.name with
    | none =>
      cases hy : b.name with
      | none => rfl
      | some y =>
        rw [nameText_of_nameless hx] at htext
        exact absurd htext.symm (hb.nameText_ne_empty hy)
    | some x =>
      cases hy : b.name with
      | none =>
        rw [nameText_of_nameless hy] at htext
        exact absurd htext (ha.nameText_ne_empty hx)
      | some y =>
        rw [nameText_of_name hx, nameText_of_name hy] at htext
        have hxReachable := ha x hx
        have hyReachable := hb y hy
        have hsegments := (hxReachable.escaped_eq_iff hyReachable).1 htext
        rw [(hxReachable.eq_iff_segments hyReachable).2 hsegments]
  · intro hname
    rw [nameText, nameText, hname]

theorem testBit_name_eq_false_iff (model : PermissionModel) :
    (DiffMask.diff model (some a) (some b)).bits.testBit Difference.name.bit = false ↔
      a.nameText = b.nameText := by
  have hcounts : model.counts .name = true := rfl
  exact DiffMask.testBit_diff_eq_false_iff hcounts

/-- Two keys differ in name unless both are nameless or both have the same name. -/
theorem Reachable.name_differs_iff (ha : a.Reachable) (hb : b.Reachable) (model : PermissionModel) :
    let differs := (DiffMask.diff model (some a) (some b)).bits.testBit Difference.name.bit
    (differs = false ↔ a.requireName = b.requireName) ∧
    (differs = false ↔
      a.name = none ∧ b.name = none ∨ ∃ name, a.name = some name ∧ b.name = some name) ∧
    (∀ x y, a.name = some x → b.name = some y →
      (differs = false ↔ a.relation b = .same) ∧
      (differs = false ↔ a.hasSameOrBelow b = .ok true ∧ b.hasSameOrBelow a = .ok true) ∧
      (differs = false ↔ x.segments = y.segments)) ∧
    (a.name.isSome ≠ b.name.isSome → differs = true) := by
  intro differs
  have hname : differs = false ↔ a.name = b.name :=
    (testBit_name_eq_false_iff model).trans (ha.nameReachable.nameText_eq_iff hb.nameReachable)
  refine ⟨hname.trans requireName_eq_iff.symm, ?_, ?_, ?_⟩
  · rw [hname]
    cases a.name with
    | none => simp [@eq_comm _ none]
    | some x => simp [@eq_comm _ (some x)]
  · intro x y hx hy
    have hxReachable := ha.nameReachable x hx
    have hyReachable := hb.nameReachable y hy
    rw [hname, hx, hy, Option.some.injEq, relation_of_names hx hy, hasSameOrBelow_of_names hx hy,
      hasSameOrBelow_of_names hy hx, Except.ok.injEq, Except.ok.injEq, Name.relation_eq_same_iff,
      hxReachable.escaped_eq_iff hyReachable]
    have hsegments := hxReachable.eq_iff_segments hyReachable
    exact ⟨hsegments, hxReachable.eq_iff_hasSameOrBelow hyReachable, hsegments⟩
  · intro hsome
    rw [← Bool.not_eq_false, hname]
    intro hsame
    exact hsome (congrArg Option.isSome hsame)

theorem same_name_by_two_ways :
    let a : Key := { name := some ⟨"user/a\\/b", ["user", "a/b"]⟩ }
    let b : Key := { name := some ⟨"user/a\\/b", ["user", "a/b"]⟩, value := .text "v" }
    let bit := Difference.name.bit
    a.Reachable ∧ b.Reachable ∧
      (DiffMask.diff .posix (some a) (some b)).bits.testBit bit = false ∧
      a.relation b = .same ∧
      (DiffMask.diff .posix (some a) (some nameless)).bits.testBit bit = true := by
  intro a b bit
  have hread : (named "user//x/../a\\/b/").outcome = .ok a := by decide +kernel
  have hroot : (named "user").outcome = .ok { name := some ⟨"user", ["user"]⟩ } := by decide +kernel
  have ha : a.Reachable := .fresh (.named hread)
  have hb : b.Reachable :=
    (Reachable.fresh (.named hroot)).afterAll
      [.addBaseName "..", .addBaseName "a/b", .setText "v"]
  obtain ⟨-, -, hnamed, -⟩ := ha.name_differs_iff hb .posix
  obtain ⟨hrelation, -, hsegments⟩ := hnamed _ _ rfl rfl
  obtain ⟨-, -, -, hnameless⟩ := ha.name_differs_iff (.fresh .nameless) .posix
  have hsame := hsegments.2 rfl
  exact ⟨ha, hb, hsame, hrelation.1 hsame, hnameless (by decide)⟩

end Key

end Keyspace
