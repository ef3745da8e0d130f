import Keyspace.Text.Utf8

namespace Keyspace.Text

section Lexicographic

variable {α : Type} [LT α] {a b : List α}

theorem lt_append_of_ne_nil (a : List α) {rest : List α} (h : rest ≠ []) : a < a ++ rest := by
  obtain ⟨x, rest, rfl⟩ := List.exists_cons_of_ne_nil h
  have hlt : a ++ [] < a ++ x :: rest := List.append_left_lt (List.nil_lt_cons x rest)
  rwa [List.append_nil] at hlt

theorem append_lt_of_not_isPrefix (h : a < b) (hbegins : ¬a <+: b) (rest : List α) :
    a ++ rest < b := by
  induction a generalizing b with
  | nil => exact (hbegins List.nil_prefix).elim
  | cons x a ih =>
    cases b with
    | nil => exact (List.not_lt_nil _ h).elim
    | cons y b =>
      rw [List.cons_append, List.cons_lt_cons_iff]
      rcases List.cons_lt_cons_iff.1 h with hxy | ⟨rfl, hab⟩
      · exact .inl hxy
      · exact .inr ⟨rfl, ih hab fun hmore => hbegins (List.cons_prefix_cons.2 ⟨rfl, hmore⟩)⟩

theorem append_lt_append_of_mark {mark : α} (h : a < b) (hb : ∀ x ∈ b, mark < x)
    {rest : List α} (hrest : ∀ x ∈ rest.head?, x = mark) (others : List α) :
    a ++ rest < b ++ others := by
  induction a generalizing b with
  | nil =>
    cases b with
    | nil => exact (List.not_lt_nil _ h).elim
    | cons y b =>
      cases rest with
      | nil => exact List.nil_lt_cons y (b ++ others)
      | cons x rest =>
        obtain rfl := hrest x rfl
        exact List.cons_lt_cons_iff.2 (.inl (hb y List.mem_cons_self))
  | cons x a ih =>
    cases b with
    | nil => exact (List.not_lt_nil _ h).elim
    | cons y b =>
      rw [List.cons_append, List.cons_append, List.cons_lt_cons_iff]
      rcases List.cons_lt_cons_iff.1 h with hxy | ⟨rfl, hab⟩
      · exact .inl hxy
      · exact .inr ⟨rfl, ih hab fun z hz => hb z (List.mem_cons_of_mem x hz)⟩

end Lexicographic

theorem not_before_iff {a b : String} : (!before b a) = true ↔ utf8 a ≤ utf8 b := by
  rw [before, Bool.not_eq_true', decide_eq_false_iff_not]
  exact Iff.rfl

theorem not_before_trans {a b c : String} (hab : (!before b a) = true)
    (hbc : (!before c b) = true) : (!before c a) = true := by
  rw [not_before_iff] at hab hbc ⊢
  exact List.le_trans hab hbc

theorem not_before_total (a b : String) : (!before b a || !before a b) = true := by
  rw [Bool.or_eq_true, not_before_iff, not_before_iff]
  exact List.le_total _ _

end Keyspace.Text
