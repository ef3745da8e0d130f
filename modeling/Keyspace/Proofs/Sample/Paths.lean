import Mathlib.Algebra.BigOperators.Ring.Finset
import Mathlib.Algebra.Ring.GeomSum

namespace Keyspace.Sample

/-- The paths down a complete tree, each before the longer ones that begin with it. -/
def paths (fanout : Nat) : Nat → List (List Nat)
  | 0 => [[]]
  | depth + 1 => [] :: (List.range fanout).flatMap fun i => (paths fanout depth).map (i :: ·)

variable {fanout depth : Nat} {path : List Nat}

theorem mem_paths_iff :
    path ∈ paths fanout depth ↔ path.length ≤ depth ∧ ∀ i ∈ path, i < fanout := by
  induction depth generalizing path with
  | zero =>
    rw [paths, List.mem_singleton, Nat.le_zero, List.length_eq_zero_iff]
    constructor
    · rintro rfl
      exact ⟨rfl, by simp⟩
    · exact And.left
  | succ depth ih =>
    cases path with
    | nil => simp [paths]
    | cons i path =>
      simp [paths, ih]
      tauto

theorem mem_paths_of_append {rest : List Nat} (h : path ++ rest ∈ paths fanout depth) :
    path ∈ paths fanout depth := by
  obtain ⟨hlength, hbound⟩ := mem_paths_iff.1 h
  rw [List.length_append] at hlength
  exact mem_paths_iff.2 ⟨by omega, fun i hi => hbound i (List.mem_append_left rest hi)⟩

theorem nodup_paths (fanout depth : Nat) : (paths fanout depth).Nodup := by
  induction depth with
  | zero => exact List.nodup_singleton []
  | succ depth ih =>
    rw [paths, List.nodup_cons, List.nodup_flatMap]
    refine ⟨by simp, fun i _ => ih.map List.cons_injective, ?_⟩
    apply List.nodup_range.imp
    intro i j hij path hi hj
    obtain ⟨first, -, rfl⟩ := List.mem_map.1 hi
    obtain ⟨second, -, hsecond⟩ := List.mem_map.1 hj
    exact hij (List.cons.inj hsecond).1.symm

theorem length_paths (fanout depth : Nat) :
    (paths fanout depth).length = ∑ i ∈ Finset.range (depth + 1), fanout ^ i := by
  induction depth with
  | zero => simp [paths]
  | succ depth ih =>
    rw [geom_sum_succ, ← ih, paths, List.length_cons, List.length_flatMap]
    simp

theorem countP_length_paths {level : Nat} (h : level ≤ depth) :
    (paths fanout depth).countP (·.length = level) = fanout ^ level := by
  induction depth generalizing level with
  | zero =>
    obtain rfl := Nat.le_zero.1 h
    rfl
  | succ depth ih =>
    cases level with
    | zero =>
      simp [paths, List.countP_flatMap, List.countP_map, Function.comp_def]
    | succ level =>
      have hlevel := ih (Nat.le_of_succ_le_succ h)
      simp [paths, List.countP_flatMap, List.countP_map, Function.comp_def, hlevel, pow_succ']

end Keyspace.Sample
