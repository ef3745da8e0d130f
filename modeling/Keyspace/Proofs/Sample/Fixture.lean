import Keyspace.Proofs.Key.Edit
import Keyspace.Proofs.Name.Hierarchy
import Keyspace.Sample.Fixture

namespace Keyspace

namespace Key

variable {key : Key}

theorem touched_of_needsSync (h : key.needsSync = true) : key.touched = key := by
  rw [touched, ← h]

theorem addBaseName_of_join {name joined : Name} {segment : String} (hsync : key.needsSync = true)
    (hname : key.name = some name) (hjoin : name.join segment = .ok joined) :
    (key.addBaseName segment).outcome = .ok { key with name := some joined } := by
  have htouched : touched { key with name := some joined } = { key with name := some joined } :=
    touched_of_needsSync hsync
  exact addBaseName_eq_ok_iff.2 ⟨name, joined, hname, hjoin, htouched.symm⟩

end Key

namespace Name

theorem foldlM_join_cons_eq_ok {base name : Name} {segment : String} {segments : List String}
    (h : (segment :: segments).foldlM join base = .ok name) :
    ∃ next, base.join segment = .ok next ∧ segments.foldlM join next = .ok name := by
  rw [List.foldlM_cons] at h
  cases hnext : base.join segment with
  | error error =>
    rw [hnext] at h
    cases h
  | ok next =>
    rw [hnext] at h
    exact ⟨next, rfl, h⟩

theorem Reachable.foldlM_join {segments : List String} {base name : Name} (h : base.Reachable)
    (hjoin : segments.foldlM Name.join base = .ok name) : name.Reachable := by
  induction segments generalizing base with
  | nil =>
    cases hjoin
    exact h
  | cons segment segments ih =>
    obtain ⟨next, hnext, hrest⟩ := foldlM_join_cons_eq_ok hjoin
    exact ih (h.join hnext) hrest

theorem baseName_of_append {name : Name} {segments others : List String}
    (h : name.segments = segments ++ others) (hsegments : segments ≠ []) (hothers : others ≠ []) :
    name.baseName = others.getLast hothers := by
  obtain ⟨root, below, rfl⟩ := List.exists_cons_of_ne_nil hsegments
  rw [baseName, h, List.cons_append, List.tail_cons, List.getLast?_append_of_ne_nil below hothers,
    List.getLast?_eq_getLast_of_ne_nil hothers, Option.getD_some]

end Name

namespace Sample

theorem appendSegments_of_join {segments : List String} {key : Key} {base name : Name}
    (hsync : key.needsSync = true) (hbase : key.name = some base)
    (hjoin : segments.foldlM Name.join base = .ok name) :
    (appendSegments key segments).outcome = .ok { key with name := some name } := by
  induction segments generalizing key base with
  | nil =>
    cases hjoin
    rw [← hbase]
    rfl
  | cons segment segments ih =>
    obtain ⟨next, hnext, hrest⟩ := Name.foldlM_join_cons_eq_ok hjoin
    have hchild := Key.addBaseName_of_join hsync hbase hnext
    have hstep : ((key.addBaseName segment).mapError (SampleError.segment segment)).outcome =
        .ok { key with name := some next } := by
      rw [Attempt.mapError, hchild]
      rfl
    exact Attempt.outcome_bind_eq_ok_iff.2 ⟨_, hstep, ih hsync rfl hrest⟩

theorem keyOfSegments_of_join {root : String} {base name : Name} {segments : List String}
    (hroot : Name.parse root = .ok base) (hjoin : segments.foldlM Name.join base = .ok name) :
    (keyOfSegments root segments).outcome = .ok { name := some name } := by
  have hne : root ≠ "" := by
    rintro rfl
    cases hroot
  have hnamed : (Key.named root).outcome = .ok { name := some base } :=
    Key.setName_eq_ok_iff.2 ⟨base, hroot, rfl⟩
  have hstep : ((Key.named root).mapError (SampleError.root root)).outcome =
      .ok { name := some base } := by
    rw [Attempt.mapError, hnamed]
    rfl
  rw [keyOfSegments, if_neg hne]
  exact Attempt.outcome_bind_eq_ok_iff.2 ⟨_, hstep, appendSegments_of_join rfl rfl hjoin⟩

/-- Levels appended to a root are the last segments of a name that reads back from its text. -/
theorem appended_segments_come_back {root : String} {base : Name}
    (hroot : Name.parse root = .ok base) {segments : List String}
    (hsegments : ∀ segment ∈ segments, Name.IsLevel segment) :
    ∃ name, segments.foldlM Name.join base = .ok name ∧
      (keyOfSegments root segments).outcome = .ok { name := some name } ∧
      name.segments = base.segments ++ segments ∧
      (∀ h : segments ≠ [], name.baseName = segments.getLast h) ∧
      Name.parse name.escaped = .ok name ∧
      ∀ other : Name, other.Reachable →
        (name = other ↔ name.escaped = other.escaped) ∧
        (name = other ↔ name.segments = other.segments) := by
  have hbase : base.Reachable := .parse hroot
  obtain ⟨hcanonical, heq⟩ := hbase.isCanonical
  have hjoin : segments.foldlM Name.join base =
      .ok (Name.ofSegments (base.segments ++ segments)) := by
    rw [heq]
    exact (Name.foldlM_join_eq_ok_iff hcanonical).2 ⟨hsegments, rfl⟩
  have hname := hbase.foldlM_join hjoin
  refine ⟨_, hjoin, keyOfSegments_of_join hroot hjoin, rfl,
    Name.baseName_of_append rfl hcanonical.ne_nil, hname.parse_escaped, ?_⟩
  intro other hother
  have hsame := hname.eq_iff_segments hother
  exact ⟨hsame.trans (hname.escaped_eq_iff hother).symm, hsame⟩

theorem separators_come_back :
    ∃ name : Name, ["a/b", "\\", "..\\", "é/"].foldlM Name.join ⟨"/x", ["", "x"]⟩ = .ok name ∧
      (keyOfSegments "//x/./" ["a/b", "\\", "..\\", "é/"]).outcome = .ok { name := some name } ∧
      name.segments = ["", "x", "a/b", "\\", "..\\", "é/"] ∧ name.baseName = "é/" ∧
      Name.parse name.escaped = .ok name := by
  have hroot : Name.parse "//x/./" = .ok ⟨"/x", ["", "x"]⟩ := by decide +kernel
  have hlevels : ∀ segment ∈ ["a/b", "\\", "..\\", "é/"], Name.IsLevel segment := by
    simp [Name.IsLevel]
  obtain ⟨name, hjoin, hkey, hsegments, hbase, hread, -⟩ :=
    appended_segments_come_back hroot hlevels
  exact ⟨name, hjoin, hkey, hsegments, hbase (List.cons_ne_nil _ _), hread⟩

end Sample

end Keyspace
