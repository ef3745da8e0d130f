import Keyspace.Proofs.Key.InPlace
import Keyspace.Proofs.Name.Settled

namespace Keyspace.InPlace

variable {text : String} {name : Name}

theorem run_setName_of_parse (h : Name.parse text = .ok name) (holder : Holder) :
    run (setName text) holder =
      (.ok (), ⟨{ holder.key with name := some name }.touched,
        holder.events ++
          if name.escaped = text then [] else [.nameCanonicalised text name.escaped]⟩) := by
  rw [run_setName, Key.setName, h]
  rfl

/-- A text is kept as it is, and nothing is reported, exactly when it is settled. -/
theorem setName_keeps_settled (h : Name.parse text = .ok name) :
    (name.escaped = text ↔ Name.Settled text.toList) ∧
    (Name.Settled text.toList → ∀ holder, run (setName text) holder =
      (.ok (), ⟨{ holder.key with name := some name }.touched, holder.events⟩)) ∧
    (¬Name.Settled text.toList →
      name.escaped.toList.Sublist text.toList ∧ name.escaped.length < text.length ∧
      ∀ holder, run (setName text) holder =
        (.ok (), ⟨{ holder.key with name := some name }.touched,
          holder.events ++ [.nameCanonicalised text name.escaped]⟩)) := by
  have hkept := Name.escaped_eq_iff_settled h
  refine ⟨hkept, ?_, ?_⟩
  · intro hsettled holder
    rw [run_setName_of_parse h, if_pos (hkept.2 hsettled), List.append_nil]
  · intro hunsettled
    have hne : name.escaped ≠ text := fun hsame => hunsettled (hkept.1 hsame)
    refine ⟨Name.escaped_sublist h, Name.length_escaped_lt h hne, ?_⟩
    intro holder
    rw [run_setName_of_parse h, if_neg hne]

theorem setName_of_trailing_separators :
    let kept : Name := ⟨"/a\\/", ["", "a/"]⟩
    Name.parse "/a\\/" = .ok kept ∧ Name.parse "/a\\//b/../" = .ok kept ∧
      (run (setName "/a\\/") { key := Key.nameless }).2.events = [] ∧
      (run (setName "/a\\//b/../") { key := Key.nameless }).2.events =
        [.nameCanonicalised "/a\\//b/../" "/a\\/"] ∧
      "/a\\/".toList.Sublist "/a\\//b/../".toList := by
  intro kept
  have hplain : Name.parse "/a\\/" = .ok kept := by decide +kernel
  have hdetour : Name.parse "/a\\//b/../" = .ok kept := by decide +kernel
  obtain ⟨hsame, hquiet, -⟩ := setName_keeps_settled hplain
  obtain ⟨hother, -, hreported⟩ := setName_keeps_settled hdetour
  have hunsettled : ¬Name.Settled "/a\\//b/../".toList := by
    rw [← hother]
    decide
  obtain ⟨hsublist, -, hrun⟩ := hreported hunsettled
  refine ⟨hplain, hdetour, ?_, ?_, hsublist⟩
  · rw [hquiet (hsame.1 rfl)]
  · rw [hrun]
    rfl

end Keyspace.InPlace
