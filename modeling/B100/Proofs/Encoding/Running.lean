import B100.Encoding.Instruction

/-! # Running encoders

An encoder is run against a resolver of settings. Its result goes through sequencing as in `Except`.
-/

namespace B100

variable {α β : Type}

namespace Inquiry

theorem run_bind (resolve : Text → Option Text) (x : Inquiry α) (f : α → Inquiry β) :
    (x >>= f).run resolve =
      ((x.run resolve).1 ++ ((f (x.run resolve).2).run resolve).1,
        ((f (x.run resolve).2).run resolve).2) := by
  induction x with
  | done a => rfl
  | ask key next ih =>
    have h := ih (resolve key)
    change Inquiry.run resolve (Inquiry.ask key fun value => (next value).bind f) = _
    simp only [Inquiry.run]
    exact congrArg (fun r => (⟨key, resolve key⟩ :: r.1, r.2)) h

end Inquiry

namespace Encoder

variable (resolve : Text → Option Text)

/-- What an encoder comes to when a resolver answers its questions. -/
def result (x : Encoder α) : Except Fault α := (x.run.run resolve).2

@[simp] theorem pure_bind (a : α) (f : α → Encoder β) : (pure a : Encoder α) >>= f = f a := rfl

@[simp] theorem result_pure (a : α) : result resolve (pure a) = .ok a := rfl

@[simp] theorem result_throw (f : Fault) : result resolve (throw f : Encoder α) = .error f := rfl

@[simp] theorem result_bind (x : Encoder α) (f : α → Encoder β) :
    result resolve (x >>= f) = (result resolve x).bind fun a => result resolve (f a) := by
  simp only [result, ExceptT.run_bind, Inquiry.run_bind]
  cases (x.run.run resolve).2 <;> rfl

theorem result_ite (c : Prop) [Decidable c] (x y : Encoder α) :
    result resolve (if c then x else y) = if c then result resolve x else result resolve y := by
  split <;> rfl

theorem result_bind_eq_ok_iff {x : Encoder α} {f : α → Encoder β} {b : β} :
    result resolve (x >>= f) = .ok b ↔
      ∃ a, result resolve x = .ok a ∧ result resolve (f a) = .ok b := by
  rw [result_bind]
  cases result resolve x <;> simp [Except.bind]

theorem result_guard_eq_ok_iff {c : Prop} [Decidable c] {f : Fault} {k : α → Encoder β}
    {y : Encoder β} {b : β} :
    result resolve (if c then throw f >>= k else y) = .ok b ↔ ¬ c ∧ result resolve y = .ok b := by
  by_cases h : c <;> simp [h, Except.bind]

theorem result_check_eq_ok_iff {c : Prop} [Decidable c] {f : Fault} {a b : α} :
    result resolve (if c then throw f else pure a) = .ok b ↔ ¬ c ∧ a = b := by
  by_cases h : c <;> simp [h]

theorem result_bind_eq_error_iff {x : Encoder α} {f : α → Encoder β} {fault : Fault} :
    result resolve (x >>= f) = .error fault ↔
      result resolve x = .error fault ∨
        ∃ a, result resolve x = .ok a ∧ result resolve (f a) = .error fault := by
  rw [result_bind]
  cases result resolve x <;> simp [Except.bind]

theorem result_guard_eq_error_iff {c : Prop} [Decidable c] {f fault : Fault} {k : α → Encoder β}
    {y : Encoder β} :
    result resolve (if c then throw f >>= k else y) = .error fault ↔
      (c ∧ fault = f) ∨ (¬ c ∧ result resolve y = .error fault) := by
  by_cases h : c <;> simp [h, Except.bind, eq_comm]

def outcome (x : Encoder α) : Except Kind α := (result resolve x).mapError Fault.kind

theorem outcome_eq_ok_iff {x : Encoder α} {a : α} :
    outcome resolve x = .ok a ↔ result resolve x = .ok a := by
  unfold outcome
  cases result resolve x with
  | ok b =>
    change Except.ok b = .ok a ↔ _
    rw [Except.ok.injEq, Except.ok.injEq]
  | error f =>
    change Except.error f.kind = .ok a ↔ _
    exact iff_of_false nofun nofun

@[simp] theorem outcome_pure (a : α) : outcome resolve (pure a) = .ok a := rfl

@[simp] theorem outcome_throw (f : Fault) : outcome resolve (throw f : Encoder α) = .error f.kind :=
  rfl

@[simp] theorem outcome_bind (x : Encoder α) (f : α → Encoder β) :
    outcome resolve (x >>= f) = (outcome resolve x).bind fun a => outcome resolve (f a) := by
  simp only [outcome, result_bind]
  cases result resolve x <;> rfl

@[simp] theorem outcome_ite (c : Prop) [Decidable c] (x y : Encoder α) :
    outcome resolve (if c then x else y) = if c then outcome resolve x else outcome resolve y := by
  split <;> rfl

theorem outcome_throw_eq_error_iff {f : Fault} {k : Kind} :
    outcome resolve (throw f : Encoder α) = .error k ↔ k = f.kind := by
  rw [outcome_throw, Except.error.injEq, eq_comm]

theorem outcome_bind_eq_error_iff {x : Encoder α} {f : α → Encoder β} {k : Kind} :
    outcome resolve (x >>= f) = .error k ↔
      outcome resolve x = .error k ∨
        ∃ a, outcome resolve x = .ok a ∧ outcome resolve (f a) = .error k := by
  rw [outcome_bind]
  cases outcome resolve x <;> simp [Except.bind]

theorem outcome_guard_eq_error_iff {c : Prop} [Decidable c] {f : Fault} {g : α → Encoder β}
    {y : Encoder β} {k : Kind} :
    outcome resolve (if c then throw f >>= g else y) = .error k ↔
      (c ∧ k = f.kind) ∨ (¬ c ∧ outcome resolve y = .error k) := by
  by_cases h : c <;> simp [h, Except.bind, eq_comm]

theorem outcome_check_eq_error_iff {c : Prop} [Decidable c] {f : Fault} {a : α} {k : Kind} :
    outcome resolve (if c then throw f else pure a) = .error k ↔ c ∧ k = f.kind := by
  by_cases h : c <;> simp [h, eq_comm]

end Encoder

open Encoder

namespace Operand

theorem result_setting (resolve : Text → Option Text) (key : Text) :
    result resolve (setting key) =
      match resolve key with
      | none => .error (.unknownSetting key)
      | some value => (Literal.short value.trim).mapError (.unreadableSetting key) := by
  have hvalue : result resolve (liftM (Inquiry.value key)) = .ok (resolve key) := rfl
  rw [setting, result_bind, hvalue, Except.bind]
  cases resolve key with
  | none => rfl
  | some value =>
    dsimp only
    cases Literal.short value.trim <;> rfl

end Operand

end B100
