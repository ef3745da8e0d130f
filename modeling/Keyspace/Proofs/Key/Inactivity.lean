import Keyspace.Proofs.Key.Hierarchy

namespace Keyspace

theorem head_escapeSegment_eq_some_iff {c : Char} (hc : isReserved c = false) {raw : List Char} :
    (escapeSegment raw).head? = some c ↔ raw.head? = some c := by
  have hescape : escape ≠ c := by
    rintro rfl
    cases hc
  cases raw with
  | nil => simp [escapeSegment]
  | cons first rest =>
    cases hfirst : isReserved first with
    | true =>
      have hne : first ≠ c := by
        rintro rfl
        rw [hfirst] at hc
        cases hc
      simp [escapeSegment_reserved hfirst, hescape, hne]
    | false => simp [escapeSegment_plain hfirst]

namespace Name

variable {name joined : Name}

def IsHidden (segment : String) : Prop :=
  segment.toList.head? = some '.'

theorem not_isHidden_empty : ¬IsHidden "" := by
  intro h
  cases h

theorem head_escapeText_iff {segment : String} :
    (escapeText segment).toList.head? = some '.' ↔ IsHidden segment := by
  rw [toList_escapeText]
  exact head_escapeSegment_eq_some_iff (by decide)

theorem Reachable.isInactive_iff (h : name.Reachable) :
    name.isInactive = true ↔ ∃ segment ∈ name.segments, IsHidden segment := by
  obtain ⟨hcanonical, hsegments⟩ := h.isCanonical
  obtain ⟨root, below, hcons⟩ := hcanonical.eq_cons
  rw [hcons] at hcanonical hsegments
  have hlevels : name.levels =
      (if root = "" then below else root :: below).map escapeText := by
    rw [hsegments]
    exact levels_ofSegments hcanonical
  simp only [isInactive, hlevels, hcons, List.any_map, List.any_eq_true, Function.comp_apply,
    beq_iff_eq, head_escapeText_iff]
  split
  · rename_i hroot
    simp [hroot, not_isHidden_empty]
  · rfl

theorem Reachable.isInactive_of_join (h : name.Reachable) {segment : String}
    (hjoin : name.join segment = .ok joined) :
    joined.isInactive = true ↔ name.isInactive = true ∨ IsHidden segment := by
  rw [(h.join hjoin).isInactive_iff, h.isInactive_iff, segments_of_join hjoin]
  simp [or_and_right, exists_or]

theorem Reachable.isInactive_of_sameOrBelow {base check : Name} (hbase : base.Reachable)
    (hcheck : check.Reachable) (hbelow : base.hasSameOrBelow check = true)
    (h : base.isInactive = true) : check.isInactive = true := by
  obtain ⟨hbegin, -⟩ := (hbase.hasSameOrBelow_iff hcheck).1 hbelow
  obtain ⟨segment, hsegment, hhidden⟩ := hbase.isInactive_iff.1 h
  exact hcheck.isInactive_iff.2 ⟨segment, hbegin.subset hsegment, hhidden⟩

end Name

namespace Key

variable {base check : Key}

theorem isInactive_of_name {key : Key} {name : Name} (h : key.name = some name) :
    key.isInactive = .ok name.isInactive := by
  rw [isInactive, requireName, h]
  rfl

/-- A key is inactive exactly when one of its raw segments is hidden. -/
theorem IsNamed.inactive_iff_hidden (hbase : base.IsNamed) (hcheck : check.IsNamed) :
    (∃ name inactive, base.name = some name ∧ base.isInactive = .ok inactive ∧
      (inactive = true ↔ ∃ segment ∈ name.segments, Name.IsHidden segment)) ∧
    (∀ segment changed, (base.addBaseName segment).outcome = .ok changed →
      (changed.isInactive = .ok true ↔
        base.isInactive = .ok true ∨ Name.IsHidden segment)) ∧
    (base.hasSameOrBelow check = .ok true → base.isInactive = .ok true →
      check.isInactive = .ok true) := by
  obtain ⟨upper, hupper, hupperReachable⟩ := hbase
  obtain ⟨lower, hlower, hlowerReachable⟩ := hcheck
  rw [isInactive_of_name hupper, isInactive_of_name hlower, hasSameOrBelow_of_names hupper hlower,
    Except.ok.injEq, Except.ok.injEq, Except.ok.injEq]
  refine ⟨⟨upper, upper.isInactive, hupper, rfl, hupperReachable.isInactive_iff⟩, ?_,
    hupperReachable.isInactive_of_sameOrBelow hlowerReachable⟩
  intro segment changed hchange
  obtain ⟨name, joined, hname, hjoin, rfl⟩ := addBaseName_eq_ok_iff.1 hchange
  obtain rfl := Option.some.inj (hupper.symm.trans hname)
  have hchanged : { base with name := some joined }.touched.isInactive = .ok joined.isInactive :=
    isInactive_of_name rfl
  rw [hchanged, Except.ok.injEq]
  exact hupperReachable.isInactive_of_join hjoin

theorem inactive_below_hidden_root :
    let hidden : Key := { name := some ⟨".\\/x", ["./x"]⟩ }
    let below : Key := { name := some ⟨".\\/x/a", ["./x", "a"]⟩ }
    let visible : Key := { name := some ⟨"\\/.x", ["/.x"]⟩ }
    let appended : Key := { name := some ⟨"\\/.x/..a", ["/.x", "..a"]⟩ }
    hidden.IsNamed ∧ below.IsNamed ∧ visible.IsNamed ∧
      hidden.isInactive = .ok true ∧ below.isInactive = .ok true ∧
      visible.isInactive = .ok false ∧
      (visible.addBaseName "..a").outcome = .ok appended ∧ appended.isInactive = .ok true := by
  intro hidden below visible appended
  have hreadHidden : Name.parse ".\\/x//" = .ok ⟨".\\/x", ["./x"]⟩ := by decide +kernel
  have hreadBelow : Name.parse ".\\/x/./a" = .ok ⟨".\\/x/a", ["./x", "a"]⟩ := by decide +kernel
  have hreadVisible : Name.parse "\\/.x" = .ok ⟨"\\/.x", ["/.x"]⟩ := by decide +kernel
  have hhidden : hidden.IsNamed := ⟨_, rfl, .parse hreadHidden⟩
  have hbelow : below.IsNamed := ⟨_, rfl, .parse hreadBelow⟩
  have hvisible : visible.IsNamed := ⟨_, rfl, .parse hreadVisible⟩
  obtain ⟨⟨name, inactive, hname, hinactive, hiff⟩, -, hinherited⟩ :=
    hhidden.inactive_iff_hidden hbelow
  obtain rfl := Option.some.inj hname
  obtain rfl : inactive = true := hiff.2 ⟨"./x", by decide, rfl⟩
  have hsame : hidden.hasSameOrBelow below = .ok true := by decide +kernel
  have hactive : visible.isInactive = .ok false := by decide +kernel
  have hchange : (visible.addBaseName "..a").outcome = .ok appended := by decide +kernel
  obtain ⟨-, happend, -⟩ := hvisible.inactive_iff_hidden hvisible
  exact ⟨hhidden, hbelow, hvisible, hinactive, hinherited hsame hinactive, hactive, hchange,
    (happend "..a" appended hchange).2 (.inr rfl)⟩

end Key

end Keyspace
