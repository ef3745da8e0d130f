import Keyspace.Proofs.Sample.Fixture
import Keyspace.Proofs.Sample.Paths
import Keyspace.Sample.Tree
import Mathlib.Data.List.Perm.Basic

namespace Keyspace

/-- The raw segments of the name, or none for a nameless key. -/
def Key.segments (key : Key) : List String :=
  key.name.elim [] Name.segments

namespace Sample

def childName (label : String) (i : Nat) : String :=
  label ++ toString i

theorem toList_childName (label : String) (i : Nat) :
    (childName label i).toList = label.toList ++ Nat.toDigits 10 i := by
  rw [childName, String.toList_append, Nat.toString_eq_repr, Nat.toList_repr]

theorem childName_injective (label : String) : Function.Injective (childName label) := by
  intro i j h
  rw [← String.toList_inj, toList_childName, toList_childName, List.append_cancel_left_eq] at h
  have hvalue := congrArg (Nat.ofDigitChars 10 · 0) h
  simpa only [Nat.ofDigitChars_ten_toDigits] using hvalue

theorem isLevel_childName (label : String) (i : Nat) : Name.IsLevel (childName label i) := by
  obtain ⟨c, hc⟩ := List.exists_mem_of_ne_nil _ (Nat.toDigits_ne_nil (n := i) (b := 10))
  have hdigit := Nat.isDigit_of_mem_toDigits (by decide) (Nat.le_refl 10) hc
  have hmem : c ∈ (childName label i).toList := by
    rw [toList_childName]
    exact List.mem_append_right _ hc
  have hplain (text : String) (htext : ∀ d ∈ text.toList, d.isDigit = false) :
      childName label i ≠ text := by
    rintro rfl
    exact Bool.false_ne_true ((htext c hmem).symm.trans hdigit)
  exact ⟨hplain "" (by simp), hplain "." (by simp), hplain ".." (by simp)⟩

def descendantName (label : String) (base : Name) (path : List Nat) : Name :=
  Name.ofSegments (base.segments ++ path.map (childName label))

def descendant (label : String) (base : Name) (path : List Nat) : Key :=
  { name := some (descendantName label base path) }

variable {label : String} {base : Name} {fanout depth : Nat}

theorem segments_descendant (path : List Nat) :
    (descendant label base path).segments = base.segments ++ path.map (childName label) := rfl

theorem segments_descendant_inj {path other : List Nat} :
    (descendant label base path).segments = (descendant label base other).segments ↔
      path = other := by
  rw [segments_descendant, segments_descendant, List.append_cancel_left_eq,
    (List.map_injective_iff.2 (childName_injective label)).eq_iff]

section Base

variable (hbase : base.Reachable)
include hbase

theorem isCanonical_descendant (label : String) (path : List Nat) :
    Name.IsCanonical (base.segments ++ path.map (childName label)) := by
  apply hbase.isCanonical.1.append
  intro segment hsegment
  obtain ⟨i, -, rfl⟩ := List.mem_map.1 hsegment
  exact isLevel_childName label i

theorem descendantName_reachable (label : String) (path : List Nat) :
    (descendantName label base path).Reachable :=
  .parse (Name.parse_render (isCanonical_descendant hbase label path))

theorem escaped_descendantName_eq_separator_iff {path : List Nat} :
    (descendantName label base path).escaped = "/" ↔ base.escaped = "/" ∧ path = [] := by
  rw [(descendantName_reachable hbase label path).escaped_eq_separator_iff,
    hbase.escaped_eq_separator_iff]
  change base.segments ++ path.map (childName label) = [""] ↔ _
  constructor
  · intro hbare
    obtain ⟨first, more, hcons⟩ := hbase.isCanonical.1.eq_cons
    rw [hcons, List.cons_append] at hbare
    obtain ⟨rfl, hnil⟩ := List.cons.inj hbare
    obtain ⟨rfl, hpath⟩ := List.append_eq_nil_iff.1 hnil
    exact ⟨hcons, List.map_eq_nil_iff.1 hpath⟩
  · rintro ⟨hbare, rfl⟩
    rw [hbare]
    rfl

theorem nameText_descendant_injective (label : String) :
    Function.Injective fun path => (descendant label base path).nameText := by
  intro path other h
  have hescaped : (descendantName label base path).escaped =
      (descendantName label base other).escaped := h
  apply segments_descendant_inj.1
  exact ((descendantName_reachable hbase label path).escaped_eq_iff
    (descendantName_reachable hbase label other)).1 hescaped

theorem descendant_nil (label : String) : descendant label base [] = { name := some base } := by
  rw [descendant, descendantName, List.map_nil, List.append_nil, ← hbase.isCanonical.2]

theorem addBaseName_descendant (label : String) (path : List Nat) (i : Nat) :
    ((descendant label base path).addBaseName (childName label i)).outcome =
      .ok (descendant label base (path ++ [i])) := by
  have hjoin := Name.join_ofSegments (isCanonical_descendant hbase label path)
    (isLevel_childName label i)
  have hname : base.segments ++ path.map (childName label) ++ [childName label i] =
      base.segments ++ (path ++ [i]).map (childName label) := by
    rw [List.map_append, List.append_assoc]
    rfl
  rw [hname] at hjoin
  exact Key.addBaseName_of_join rfl rfl hjoin

theorem children_descendant (label : String) (fanout : Nat) (path : List Nat) :
    (children label fanout (descendant label base path)).outcome =
      .ok ((List.range fanout).map fun i => descendant label base (path ++ [i])) :=
  Attempt.outcome_mapM_of_ok fun i _ => addBaseName_descendant hbase label path i

/-- Depth first, the keys of a subtree are the ends of the paths down it, in order. -/
theorem subtree_descendant (label : String) (fanout depth : Nat) (path : List Nat) :
    (subtree label fanout depth (descendant label base path)).outcome =
      .ok ((paths fanout depth).map fun rest => descendant label base (path ++ rest)) := by
  induction depth generalizing path with
  | zero =>
    rw [paths, List.map_singleton, List.append_nil]
    rfl
  | succ depth ih =>
    have hbelow : (((List.range fanout).map fun i => descendant label base (path ++ [i])).mapM
        (subtree label fanout depth)).outcome =
        .ok ((List.range fanout).map fun i =>
          (paths fanout depth).map fun rest => descendant label base (path ++ [i] ++ rest)) := by
      rw [List.mapM_map]
      exact Attempt.outcome_mapM_of_ok fun i _ => ih (path ++ [i])
    rw [subtree]
    apply Attempt.outcome_bind_of_ok (children_descendant hbase label fanout path)
    apply Attempt.outcome_bind_of_ok hbelow
    simp [paths, List.flatMap_def, Function.comp_def]

theorem nextLevel_descendants (label : String) (fanout : Nat) (level : List (List Nat)) :
    (nextLevel label fanout (level.map (descendant label base))).outcome =
      .ok ((level.flatMap fun path => (List.range fanout).map fun i => path ++ [i]).map
        (descendant label base)) := by
  have hfamilies : ((level.map (descendant label base)).mapM fun parent =>
      (children label fanout parent).mapError (SampleError.fixtureChild parent.nameText)).outcome =
      .ok (level.map fun path =>
        (List.range fanout).map fun i => descendant label base (path ++ [i])) := by
    rw [List.mapM_map]
    apply Attempt.outcome_mapM_of_ok
    intro path _
    rw [Function.comp_apply, Attempt.mapError, children_descendant hbase label fanout path]
    rfl
  rw [nextLevel]
  apply Attempt.outcome_bind_of_ok hfamilies
  simp [List.flatMap_def, Function.comp_def]

/-- Level by level, a level leads to the same keys as the subtrees that start on it. -/
theorem levelsBelow_descendants (label : String) (fanout depth : Nat) (level : List (List Nat)) :
    ∃ below : List (List Nat),
      (levelsBelow label fanout depth (level.map (descendant label base))).outcome =
        .ok (below.map (descendant label base)) ∧
      (level ++ below).Perm (level.flatMap fun path => (paths fanout depth).map (path ++ ·)) := by
  induction depth generalizing level with
  | zero =>
    refine ⟨[], rfl, ?_⟩
    simp [paths]
  | succ depth ih =>
    cases level with
    | nil => exact ⟨[], rfl, .nil⟩
    | cons first level =>
      obtain ⟨deeper, hdeeper, hperm⟩ := ih
        ((first :: level).flatMap fun path => (List.range fanout).map fun i => path ++ [i])
      refine ⟨_ ++ deeper, ?_, ((hperm.append_left (first :: level)).trans ?_)⟩
      · rw [List.map_cons, levelsBelow, ← List.map_cons, List.map_append]
        apply Attempt.outcome_bind_of_ok
          (nextLevel_descendants hbase label fanout (first :: level))
        apply Attempt.outcome_bind_of_ok hdeeper
        rfl
      · -- what starts on the next level follows each key of this one in its own subtree
        have hsplit := List.map_append_flatMap_perm (first :: level) id fun path =>
          ((List.range fanout).map fun i => path ++ [i]).flatMap fun child =>
            (paths fanout depth).map (child ++ ·)
        rw [List.map_id, ← List.flatMap_assoc] at hsplit
        refine hsplit.trans (.of_eq ?_)
        simp [paths, List.map_flatMap, List.flatMap_map, Function.comp_def]

end Base

variable {root : String}

theorem named_of_parse (h : Name.parse root = .ok base) (label : String) :
    (Key.named root).outcome = .ok (descendant label base []) := by
  rw [descendant_nil (.parse h)]
  exact Key.setName_eq_ok_iff.2 ⟨base, h, rfl⟩

theorem named_of_parse_error {cause : KeyError} (h : Name.parse root = .error cause) :
    (Key.named root).outcome = .error cause := by
  rw [Key.named, Key.setName, h]
  rfl

theorem sortedTree_of_parse (h : Name.parse root = .ok base) (depth fanout : Nat) :
    ∃ order : List (List Nat), order.Perm (paths fanout depth) ∧
      (sortedTree root depth fanout).outcome =
        .ok ((order.map (descendant "n" base)).mergeSort fun a b => !b.nameBefore a) := by
  obtain ⟨below, hbelow, hperm⟩ := levelsBelow_descendants (.parse h) "n" fanout depth [[]]
  have hkey : (key root).outcome = .ok (descendant "n" base []) := by
    rw [key, Attempt.mapError, named_of_parse h "n"]
    rfl
  refine ⟨[[]] ++ below, ?_, ?_⟩
  · have hpaths : ([[]].flatMap fun path => (paths fanout depth).map (path ++ ·)) =
        paths fanout depth := by
      simp
    rwa [hpaths] at hperm
  · rw [sortedTree]
    apply Attempt.outcome_bind_of_ok hkey
    apply Attempt.outcome_bind_of_ok hkey
    apply Attempt.outcome_bind_of_ok hbelow
    rfl

theorem preorderTree_of_parse (h : Name.parse root = .ok base) (depth fanout : Nat) :
    (preorderTree root depth fanout).outcome =
      .ok ((paths fanout depth).map (descendant "c" base)) := by
  rw [preorderTree]
  apply Attempt.outcome_bind_of_ok (named_of_parse h "c")
  exact subtree_descendant (.parse h) "c" fanout depth []

theorem sortedTree_eq_error_iff {depth fanout : Nat} {error : SampleError} :
    (sortedTree root depth fanout).outcome = .error error ↔
      ∃ cause, Name.parse root = .error cause ∧ error = .fixtureName root cause := by
  cases h : Name.parse root with
  | ok base =>
    obtain ⟨order, -, hsorted⟩ := sortedTree_of_parse h depth fanout
    simp [hsorted]
  | error cause =>
    have hkey : (key root).outcome = .error (.fixtureName root cause) := by
      rw [key, Attempt.mapError, named_of_parse_error h]
      rfl
    rw [sortedTree, Attempt.bind_of_error hkey]
    simp [eq_comm]

theorem preorderTree_eq_error_iff {depth fanout : Nat} {error : KeyError} :
    (preorderTree root depth fanout).outcome = .error error ↔ Name.parse root = .error error := by
  cases h : Name.parse root with
  | ok base => simp [preorderTree_of_parse h]
  | error cause =>
    rw [preorderTree, Attempt.bind_of_error (named_of_parse_error h)]
    simp

end Sample

end Keyspace
