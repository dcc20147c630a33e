import B100.Proofs.Assembly.Labels
import B100.Proofs.Encoding.Running
import B100.Proofs.Text.Ascii
import Mathlib.Data.List.Basic

/-! # Kinds of faults

For each encoder, the conditions under which it fails, kind by kind. An encoder makes its checks in
an order of its own, so a condition may ask that what is checked earlier is in order. Only the
faults of answers from the settings are left out here.
-/

namespace B100

open Encoder

namespace Operand

variable {resolve : Text → Option Text} {token : Text} {n : Int} {k : Kind}

/-- The number that a token stands for: its own, or else that of the setting it names. -/
def Resolves (read : Text → Except LiteralError Int) (resolve : Text → Option Text) (token : Text)
    (n : Int) : Prop :=
  read token = .ok n ∨ (∀ m, read token ≠ .ok m) ∧
    ∃ value, resolve token = some value ∧ Literal.short value.trim = .ok n

theorem outcome_setting_eq_ok_iff : outcome resolve (setting token) = .ok n ↔
    ∃ value, resolve token = some value ∧ Literal.short value.trim = .ok n := by
  rw [outcome, result_setting]
  cases resolve token with
  | none => simp [Except.mapError]
  | some value => cases h : Literal.short value.trim <;> simp [h, Except.mapError]

/-- Only an answer can be wrong about a setting. -/
theorem outcome_setting_ne_error (hk : k ≠ .invalidOperand) :
    outcome resolve (setting token) ≠ .error k := by
  rw [outcome, result_setting]
  cases resolve token with
  | none => exact fun h => hk (Except.error.inj h).symm
  | some value =>
    dsimp only
    cases Literal.short value.trim with
    | ok n => exact fun h => by cases h
    | error e => exact fun h => hk (Except.error.inj h).symm

section Read

variable (read : Text → Except LiteralError Int) {x : Encoder Int}

theorem outcome_eq_ok_iff_resolves
    (hx : x = match read token with | .ok n => pure n | .error _ => setting token) :
    outcome resolve x = .ok n ↔ Resolves read resolve token n := by
  subst hx
  unfold Resolves
  cases h : read token with
  | ok m => simp
  | error e => simp [outcome_setting_eq_ok_iff]

theorem outcome_ne_error
    (hx : x = match read token with | .ok n => pure n | .error _ => setting token)
    (hk : k ≠ .invalidOperand) : outcome resolve x ≠ .error k := by
  subst hx
  cases read token with
  | ok m => nofun
  | error e => exact outcome_setting_ne_error hk

end Read

theorem outcome_short_eq_ok_iff :
    outcome resolve (short token) = .ok n ↔ Resolves Literal.short resolve token n :=
  outcome_eq_ok_iff_resolves Literal.short rfl

theorem outcome_short_ne_error (hk : k ≠ .invalidOperand) :
    outcome resolve (short token) ≠ .error k :=
  outcome_ne_error Literal.short rfl hk

theorem outcome_index_eq_ok_iff :
    outcome resolve (index token) = .ok n ↔ Resolves Literal.index resolve token n :=
  outcome_eq_ok_iff_resolves Literal.index rfl

theorem outcome_index_ne_error (hk : k ≠ .invalidOperand) :
    outcome resolve (index token) ≠ .error k :=
  outcome_ne_error Literal.index rfl hk

def firstToken (operands : Text) : Text :=
  (operands.trim.cut (· == ','.toUInt8)).1.trim.lower

def secondToken? (operands : Text) : Option Text :=
  (operands.trim.cut (· == ','.toUInt8)).2.map (·.trim.lower)

end Operand

open Operand

namespace Encoding

variable {e : Encoding} {resolve : Text → Option Text} {operand operands : Text} {k : Kind}

theorem outcome_labelAddress_eq_error_iff {name : Text} :
    outcome resolve (e.labelAddress name) = .error k ↔
      e.labels[name]? = none ∧ k = .unknownLabel ∨
        ∃ address, e.labels[name]? = some address ∧ 0x7FFF < address ∧ k = .outOfRange := by
  unfold labelAddress
  cases e.labels[name]? with
  | none =>
    simp only [outcome_throw_eq_error_iff, Fault.kind, true_and, reduceCtorEq, false_and,
      exists_false, or_false]
  | some address =>
    simp only [outcome_check_eq_error_iff, Fault.kind, reduceCtorEq, false_and, false_or,
      Option.some_inj, exists_eq_left']

theorem outcome_pushValue_eq_error_iff (hk : k ≠ .invalidOperand) :
    outcome resolve (e.pushValue operand) = .error k ↔
      (∃ n, ¬ ("$lbl." : Text) <+: operand ∧ Resolves Literal.short resolve operand n ∧ n < 0 ∧
        k = .negativeOperand) ∨
      ∃ name, operand = "$lbl." ++ name ∧
        (e.labels[name]? = none ∧ k = .unknownLabel ∨
          ∃ address, e.labels[name]? = some address ∧ 0x7FFF < address ∧ k = .outOfRange) := by
  by_cases hlabel : ("$lbl." : Text) <+: operand
  · obtain ⟨name, rfl⟩ := hlabel
    rw [pushValue_label, outcome_labelAddress_eq_error_iff]
    simp
  · have hafter : operand.after? "$lbl." = none := by
      cases h : operand.after? "$lbl." with
      | none => rfl
      | some name => exact absurd ⟨name, (Text.after?_eq_some_iff.mp h).symm⟩ hlabel
    have hname : ∀ name, operand ≠ "$lbl." ++ name := fun name h => hlabel ⟨name, h.symm⟩
    simp only [hlabel, not_false_eq_true, true_and, hname, false_and, exists_false, or_false]
    unfold pushValue Resolves
    cases hshort : Literal.short operand with
    | ok n =>
      rw [outcome_check_eq_error_iff]
      simp [Fault.kind]
    | error error =>
      simp only [hafter, outcome_bind_eq_error_iff, outcome_setting_ne_error hk, false_or,
        outcome_setting_eq_ok_iff, outcome_check_eq_error_iff, Fault.kind]
      simp

theorem outcome_push_eq_error_iff :
    outcome resolve (e.push operand) = .error k ↔
      (operand.trim.any Text.isSpaceOrTab = true ∧ k = .syntaxError) ∨
      (operand.trim.any Text.isSpaceOrTab = false ∧
        outcome resolve (e.pushValue operand.trim) = .error k) := by
  simp only [push, outcome_guard_eq_error_iff, outcome_bind_eq_error_iff, outcome_pure,
    reduceCtorEq, and_false, exists_false, or_false, Fault.kind, Bool.not_eq_true]

theorem outcome_copy_eq_error_iff :
    outcome resolve (e.copy operands) = .error k ↔
      (registerPair? operands = none ∧ k = .syntaxError) ∨
      ∃ a b, registerPair? operands = some (a, b) ∧ (15 < a ∨ 15 < b) ∧ k = .outOfRange := by
  unfold copy
  cases h : registerPair? operands with
  | none =>
    simp only [outcome_throw_eq_error_iff, Fault.kind, true_and, reduceCtorEq, false_and,
      exists_false, or_false]
  | some pair =>
    obtain ⟨a, b⟩ := pair
    simp only [outcome_guard_eq_error_iff, outcome_pure, reduceCtorEq, and_false, or_false,
      false_and, false_or, Fault.kind, Option.some_inj, Prod.mk.injEq]
    constructor
    · rintro (⟨ha, rfl⟩ | ⟨-, hb, rfl⟩)
      · exact ⟨a, b, ⟨rfl, rfl⟩, .inl ha, rfl⟩
      · exact ⟨a, b, ⟨rfl, rfl⟩, .inr hb, rfl⟩
    · rintro ⟨_, _, ⟨rfl, rfl⟩, hrange, rfl⟩
      by_cases ha : 15 < a
      · exact .inl ⟨ha, rfl⟩
      · exact .inr ⟨ha, hrange.resolve_left ha, rfl⟩

theorem outcome_jump_eq_error_iff {m : Text} :
    outcome resolve (e.jump m) = .error k ↔ m ∉ e.isa.jump ∧ k = .unknownMnemonic := by
  rw [jump, ← Std.ExtTreeMap.isSome_getElem?_iff_mem]
  cases e.isa.jump[m]? with
  | none =>
    simp only [outcome_throw_eq_error_iff, Fault.kind, Option.isSome_none, Bool.false_eq_true,
      not_false_eq_true, true_and]
  | some code => simp

theorem outcome_operation_eq_error_iff {m : Text} :
    outcome resolve (e.statement (.operation m)) = .error k ↔
      m ∉ e.isa.alu ∧ k = .unknownMnemonic := by
  rw [statement]
  split
  · next hm => simp [operation, hm]
  · next hm => simp only [outcome_throw_eq_error_iff, Fault.kind, hm, not_false_eq_true, true_and]

theorem outcome_withOperands_unknown {m : Text}
    (hany : m.lower ≠ "push" ∧ m.lower ≠ "copy" ∧ m.lower ≠ "sys") (hio : m ∉ e.isa.io) :
    outcome resolve (e.statement (.withOperands m operands)) = .error .unknownMnemonic := by
  unfold Statement.withOperands
  split
  · rw [statement, peripheral, Std.ExtTreeMap.getElem?_eq_none hio]
    rfl
  · simp only [if_neg hany.1, if_neg hany.2.1, if_neg hany.2.2]
    rfl

theorem outcome_system_eq_error_iff (hk : k ≠ .invalidOperand) :
    outcome resolve (e.system operands) = .error k ↔
      (operands.fields.length ≠ 2 ∧ k = .syntaxError) ∨
      (∃ command token, operands.fields = [command, token] ∧ command ≠ "cmd" ∧
        k = .unknownMnemonic) ∨
      ∃ token n, operands.fields = [Text.utf8 "cmd", token] ∧
        Resolves Literal.short resolve token.lower n ∧ (n < 0 ∨ 255 < n) ∧ k = .outOfRange := by
  unfold system
  split
  · next command token hfields =>
    simp only [outcome_guard_eq_error_iff, outcome_bind_eq_error_iff, outcome_short_ne_error hk,
      outcome_short_eq_ok_iff, outcome_pure, reduceCtorEq, and_false, or_false, false_or,
      Fault.kind, Bool.or_eq_true, decide_eq_true_eq, not_not, hfields]
    constructor
    · rintro (⟨hcommand, rfl⟩ | ⟨rfl, n, hn, hrange, rfl⟩)
      · exact .inr (.inl ⟨command, token, rfl, hcommand, rfl⟩)
      · exact .inr (.inr ⟨token, n, rfl, hn, hrange, rfl⟩)
    · rintro (⟨hlen, -⟩ | ⟨_, _, ⟨⟩, hcommand, rfl⟩ | ⟨_, n, ⟨⟩, hn, hrange, rfl⟩)
      · exact absurd rfl hlen
      · exact .inl ⟨hcommand, rfl⟩
      · exact .inr ⟨rfl, n, hn, hrange, rfl⟩
  · next hfields =>
    have hother : ∀ command token, operands.fields ≠ [command, token] := hfields
    have hlen : operands.fields.length ≠ 2 := by
      intro hlen
      obtain ⟨command, token, hpair⟩ := List.length_eq_two.mp hlen
      exact hother command token hpair
    simp only [outcome_throw_eq_error_iff, Fault.kind, hother, hlen, ne_eq, not_false_eq_true,
      true_and, false_and, exists_false, or_false]

theorem outcome_peripheral_eq_error_iff (hk : k ≠ .invalidOperand) {m : Text} (hm : m ∈ e.isa.io) :
    outcome resolve (e.peripheral m operands) = .error k ↔
      ∃ n, Resolves Literal.index resolve (firstToken operands) n ∧
        ((n < 0 ∨ 7 < n) ∧ k = .outOfRange ∨ (0 ≤ n ∧ n ≤ 7) ∧
          (m = "ioex" ∧ isOneOrTwoDigits operands.trim = false ∧
            isSectionKey operands.trim = false ∧ k = .syntaxError ∨
          m ≠ "ioex" ∧ (secondToken? operands = none ∧ k = .syntaxError ∨
            ∃ token i, secondToken? operands = some token ∧
              Resolves Literal.index resolve token i ∧ (i < 0 ∨ 15 < i) ∧ k = .outOfRange))) := by
  simp only [peripheral, Std.ExtTreeMap.getElem?_eq_some_getElem hm, outcome_guard_eq_error_iff,
    outcome_bind_eq_error_iff, outcome_index_ne_error hk, outcome_index_eq_ok_iff, false_or,
    Fault.kind, Bool.or_eq_true, decide_eq_true_eq, not_or, Int.not_lt]
  refine exists_congr fun n => and_congr Iff.rfl (or_congr Iff.rfl (and_congr Iff.rfl ?_))
  by_cases hexecute : m = "ioex"
  · simp only [hexecute, if_true, ne_eq, not_true_eq_false, false_and, or_false, true_and]
    split
    · next hspelled =>
      rw [outcome_pure]
      refine ⟨nofun, fun ⟨hdigits, hkey, _⟩ => ?_⟩
      rw [hdigits, hkey] at hspelled
      rcases hspelled with h | h <;> cases h
    · next hspelled =>
      rw [outcome_throw_eq_error_iff]
      simp only [not_or, Bool.not_eq_true] at hspelled
      simp only [hspelled, true_and, Fault.kind]
  · simp only [hexecute, if_false, ne_eq, not_false_eq_true, true_and, false_and, false_or]
    unfold secondToken?
    cases (operands.trim.cut (· == ','.toUInt8)).2 with
    | none =>
      simp only [outcome_throw_eq_error_iff, Fault.kind, Option.map_none, true_and, reduceCtorEq,
        false_and, exists_false, or_false]
    | some rest =>
      simp only [outcome_bind_eq_error_iff, outcome_index_ne_error hk, outcome_index_eq_ok_iff,
        outcome_guard_eq_error_iff, outcome_pure, reduceCtorEq, and_false, or_false, false_or,
        Fault.kind, Option.map_some, Option.some_inj, false_and, exists_and_left, exists_eq_left']

end Encoding

end B100
