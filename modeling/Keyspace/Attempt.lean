import Keyspace.Event

namespace Keyspace

/-- The outcome of a step, and the events it reported before it succeeded or failed. -/
structure Attempt (ε α : Type) where
  outcome : Except ε α
  events : List KeyEvent

namespace Attempt

variable {ε ε' α β : Type}

protected def pure (value : α) : Attempt ε α :=
  ⟨.ok value, []⟩

def fail (error : ε) : Attempt ε α :=
  ⟨.error error, []⟩

/-- The first step, and after its success the one that it leads to. -/
protected def bind (first : Attempt ε α) (next : α → Attempt ε β) : Attempt ε β :=
  match first.outcome with
  | .ok value => ⟨(next value).outcome, first.events ++ (next value).events⟩
  | .error error => ⟨.error error, first.events⟩

instance : Monad (Attempt ε) where
  pure := Attempt.pure
  bind := Attempt.bind

def mapError (describe : ε → ε') (step : Attempt ε α) : Attempt ε' α :=
  ⟨step.outcome.mapError describe, step.events⟩

@[simp] theorem outcome_pure (value : α) : (pure value : Attempt ε α).outcome = .ok value := rfl

@[simp] theorem events_pure (value : α) : (pure value : Attempt ε α).events = [] := rfl

@[simp] theorem outcome_fail (error : ε) : (fail error : Attempt ε α).outcome = .error error := rfl

@[simp] theorem events_fail (error : ε) : (fail error : Attempt ε α).events = [] := rfl

theorem bind_of_ok {first : Attempt ε α} {value : α} (h : first.outcome = .ok value)
    (next : α → Attempt ε β) :
    first >>= next = ⟨(next value).outcome, first.events ++ (next value).events⟩ := by
  change Attempt.bind first next = _
  rw [Attempt.bind, h]

theorem bind_of_error {first : Attempt ε α} {error : ε} (h : first.outcome = .error error)
    (next : α → Attempt ε β) : first >>= next = ⟨.error error, first.events⟩ := by
  change Attempt.bind first next = _
  rw [Attempt.bind, h]

theorem outcome_bind_eq_ok_iff {first : Attempt ε α} {next : α → Attempt ε β} {result : β} :
    (first >>= next).outcome = .ok result ↔
      ∃ value, first.outcome = .ok value ∧ (next value).outcome = .ok result := by
  cases h : first.outcome with
  | ok value => simp [bind_of_ok h]
  | error error => simp [bind_of_error h]

theorem outcome_bind_of_ok {first : Attempt ε α} {next : α → Attempt ε β} {value : α} {result : β}
    (hfirst : first.outcome = .ok value) (hnext : (next value).outcome = .ok result) :
    (first >>= next).outcome = .ok result :=
  outcome_bind_eq_ok_iff.2 ⟨value, hfirst, hnext⟩

@[simp] theorem outcome_map (f : α → β) (step : Attempt ε α) :
    (f <$> step).outcome = step.outcome.map f := by
  change (step >>= fun value => pure (f value)).outcome = _
  cases h : step.outcome with
  | ok value => rw [bind_of_ok h]; rfl
  | error error => rw [bind_of_error h]; rfl

@[simp] theorem events_map (f : α → β) (step : Attempt ε α) :
    (f <$> step).events = step.events := by
  change (step >>= fun value => pure (f value)).events = _
  cases h : step.outcome with
  | ok value => rw [bind_of_ok h]; exact List.append_nil _
  | error error => rw [bind_of_error h]

theorem outcome_map_eq_ok_iff {f : α → β} {step : Attempt ε α} {result : β} :
    (f <$> step).outcome = .ok result ↔ ∃ value, step.outcome = .ok value ∧ f value = result := by
  change (step >>= fun value => pure (f value)).outcome = _ ↔ _
  simp [outcome_bind_eq_ok_iff]

theorem outcome_map_eq_error_iff {f : α → β} {step : Attempt ε α} {error : ε} :
    (f <$> step).outcome = .error error ↔ step.outcome = .error error := by
  rw [outcome_map]
  cases step.outcome with
  | ok value => simp [Except.map]
  | error cause => simp [Except.map]

theorem pure_bind (value : α) (next : α → Attempt ε β) : pure value >>= next = next value := by
  rw [bind_of_ok (outcome_pure value), events_pure, List.nil_append]

theorem bind_assoc {γ : Type} (first : Attempt ε α) (second : α → Attempt ε β)
    (third : β → Attempt ε γ) :
    first >>= second >>= third = first >>= fun value => second value >>= third := by
  cases hfirst : first.outcome with
  | error error => rw [bind_of_error hfirst, bind_of_error hfirst, bind_of_error rfl]
  | ok value =>
    rw [bind_of_ok hfirst, bind_of_ok hfirst]
    cases hsecond : (second value).outcome with
    | error error => rw [bind_of_error rfl, bind_of_error hsecond]
    | ok next => rw [bind_of_ok rfl, bind_of_ok hsecond, List.append_assoc]

theorem id_map (step : Attempt ε α) : id <$> step = step := by
  obtain ⟨outcome, events⟩ := step
  change (⟨outcome, events⟩ >>= fun value => pure value : Attempt ε α) = _
  cases outcome with
  | error error => rfl
  | ok value => rw [bind_of_ok rfl, outcome_pure, events_pure, List.append_nil]

instance : LawfulMonad (Attempt ε) :=
  LawfulMonad.mk' (Attempt ε) id_map pure_bind bind_assoc

theorem outcome_mapM_of_ok {step : α → Attempt ε β} {result : α → β} {items : List α}
    (h : ∀ item ∈ items, (step item).outcome = .ok (result item)) :
    (items.mapM step).outcome = .ok (items.map result) := by
  induction items with
  | nil => rfl
  | cons item items ih =>
    obtain ⟨hitem, hitems⟩ := List.forall_mem_cons.1 h
    rw [List.mapM_cons]
    apply outcome_bind_of_ok hitem
    apply outcome_bind_of_ok (ih hitems)
    rfl

end Attempt

end Keyspace
