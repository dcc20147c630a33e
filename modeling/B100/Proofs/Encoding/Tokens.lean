import B100.Proofs.Encoding.Faults

/-! # Tokens

What comes of a token that has to be a number up to a bound: the number, or one of three faults.
-/

namespace B100

open Encoder

namespace Operand

variable {resolve : Text → Option Text} {token : Text} {n greatest : Int} {f : Fault}

def Admits (resolve : Text → Option Text) (greatest : Int) (token : Text) (n : Int) : Prop :=
  Resolves Literal.index resolve token n ∧ 0 ≤ n ∧ n ≤ greatest

inductive Rejects (resolve : Text → Option Text) (greatest : Int) (outside : Int → Fault)
    (token : Text) : Fault → Prop
  | unknown (hread : ∀ n, Literal.index token ≠ .ok n) (h : resolve token = none) :
    Rejects resolve greatest outside token (.unknownSetting token)
  | unreadable {value : Text} {error : LiteralError} (hread : ∀ n, Literal.index token ≠ .ok n)
    (h : resolve token = some value) (herror : Literal.short value.trim = .error error) :
    Rejects resolve greatest outside token (.unreadableSetting token error)
  | outside {n : Int} (h : Resolves Literal.index resolve token n)
    (hrange : n < 0 ∨ greatest < n) : Rejects resolve greatest outside token (outside n)

theorem result_index_eq_ok_iff :
    result resolve (index token) = .ok n ↔ Resolves Literal.index resolve token n := by
  rw [← outcome_eq_ok_iff, outcome_index_eq_ok_iff]

theorem result_short_eq_ok_iff :
    result resolve (short token) = .ok n ↔ Resolves Literal.short resolve token n := by
  rw [← outcome_eq_ok_iff, outcome_short_eq_ok_iff]

theorem result_setting_eq_error_iff : result resolve (setting token) = .error f ↔
    resolve token = none ∧ f = .unknownSetting token ∨
      ∃ value error, resolve token = some value ∧ Literal.short value.trim = .error error ∧
        f = .unreadableSetting token error := by
  rw [result_setting]
  cases resolve token with
  | none => simp [eq_comm]
  | some value => cases h : Literal.short value.trim <;> simp [h, Except.mapError, eq_comm]

theorem result_index_eq_error_iff : result resolve (index token) = .error f ↔
    (∀ n, Literal.index token ≠ .ok n) ∧ result resolve (setting token) = .error f := by
  unfold index
  cases Literal.index token <;> simp

section Bounded

variable {α β : Type} {outside : Int → Fault} {j : Int → α → Encoder β} {k : Int → Encoder β}

theorem result_bounded_eq_ok_iff {b : β} :
    result resolve (index token >>= fun n =>
      if n < 0 || greatest < n then throw (outside n) >>= j n else k n) = .ok b ↔
      ∃ n, Admits resolve greatest token n ∧ result resolve (k n) = .ok b := by
  simp only [result_bind_eq_ok_iff, result_guard_eq_ok_iff, result_index_eq_ok_iff, Admits,
    Bool.or_eq_true, decide_eq_true_eq, not_or, Int.not_lt, and_assoc]

theorem result_bounded_eq_error_iff :
    result resolve (index token >>= fun n =>
      if n < 0 || greatest < n then throw (outside n) >>= j n else k n) = .error f ↔
      Rejects resolve greatest outside token f ∨
        ∃ n, Admits resolve greatest token n ∧ result resolve (k n) = .error f := by
  simp only [result_bind_eq_error_iff, result_guard_eq_error_iff, result_index_eq_ok_iff,
    result_index_eq_error_iff, result_setting_eq_error_iff, Bool.or_eq_true, decide_eq_true_eq,
    not_or, Int.not_lt]
  constructor
  · rintro (⟨hread, ⟨h, rfl⟩ | ⟨value, error, h, herror, rfl⟩⟩ |
      ⟨n, hn, ⟨hrange, rfl⟩ | ⟨hrange, h⟩⟩)
    · exact .inl (.unknown hread h)
    · exact .inl (.unreadable hread h herror)
    · exact .inl (.outside hn hrange)
    · exact .inr ⟨n, ⟨hn, hrange⟩, h⟩
  · rintro (h | ⟨n, ⟨hn, hrange⟩, h⟩)
    · cases h with
      | unknown hread h => exact .inl ⟨hread, .inl ⟨h, rfl⟩⟩
      | unreadable hread h herror => exact .inl ⟨hread, .inr ⟨_, _, h, herror, rfl⟩⟩
      | outside h hrange => exact .inr ⟨_, h, .inl ⟨hrange, rfl⟩⟩
    · exact .inr ⟨n, hn, .inr ⟨hrange, h⟩⟩

end Bounded

end Operand

end B100
