import B100.Proofs.Encoding.Running
import B100.Proofs.Instruction.Packing

/-! # Resolution of statements

What the operands of a statement come to as numbers, before any field is packed. A statement that is
encoded is one whose operands fit, and its word is the packed instruction.
-/

namespace B100

open Encoder

namespace Literal

theorem short_range {s : Text} {n : Int} (h : short s = .ok n) : -0x8000 ≤ n ∧ n ≤ 0x7FFF := by
  simp only [short] at h
  split at h
  · cases h
  · split at h
    · cases h
    · split at h
      · next hs =>
        obtain rfl := Except.ok.inj h
        simpa [isShort] using hs
      · cases h

end Literal

namespace Operand

theorem setting_range {resolve : Text → Option Text} {key : Text} {n : Int}
    (h : result resolve (setting key) = .ok n) : -0x8000 ≤ n ∧ n ≤ 0x7FFF := by
  rw [result_setting] at h
  cases hvalue : resolve key with
  | none => simp [hvalue] at h
  | some value =>
    rw [hvalue] at h
    dsimp only at h
    cases hs : Literal.short value.trim with
    | error e =>
      rw [hs] at h
      cases h
    | ok k =>
      rw [hs] at h
      obtain rfl : k = n := Except.ok.inj h
      exact Literal.short_range hs

end Operand

namespace Encoding

variable (e : Encoding) (resolve : Text → Option Text)

def number? (x : Encoder Int) : Option Int := (result resolve x).toOption

/-- The instruction that a statement stands for. But for the value of a push, nothing is compared
with the width of a field. -/
def resolved? : Statement → Option Instruction
  | .push operand => (number? resolve (e.pushValue operand.trim)).map .push
  | .copy operands =>
    (Operand.registerPair? operands).map fun (source, destination) => .copy source destination
  | .jump mnemonic => e.isa.jump[mnemonic]?.map .jump
  | .operation mnemonic => e.isa.alu[mnemonic]?.map .operation
  | .peripheral mnemonic operands =>
    let (first, rest) := operands.trim.cut (· == ','.toUInt8)
    let register? :=
      if mnemonic = "ioex" then some 0
      else rest.bind fun rest => number? resolve (Operand.index rest.trim.lower)
    match number? resolve (Operand.index first.trim.lower), register?, e.isa.io[mnemonic]? with
    | some number, some register, some code => some (.peripheral number register code)
    | _, _, _ => none
  | .system operands =>
    match operands.fields with
    | [_, token] => (number? resolve (Operand.short token.lower)).map (.system e.isa.sysFlag)
    | _ => none
  | .unknown _ => none

variable {e resolve}

theorem number?_eq_some_iff {x : Encoder Int} {n : Int} :
    number? resolve x = some n ↔ result resolve x = .ok n := by
  unfold number?
  cases result resolve x <;> simp [Except.toOption]

/-- Labels are bound to addresses, which are never negative. -/
def Sound (e : Encoding) : Prop := ∀ (name : Text) (address : Int),
  e.labels[name]? = some address → 0 ≤ address

theorem pushValue_range (he : e.Sound) {operand : Text} {n : Int}
    (h : result resolve (e.pushValue operand) = .ok n) : 0 ≤ n ∧ n ≤ 0x7FFF := by
  unfold pushValue at h
  split at h
  · next k hk =>
    obtain ⟨hneg, rfl⟩ := (result_check_eq_ok_iff resolve).mp h
    exact ⟨by omega, (Literal.short_range hk).2⟩
  · split at h
    · next name hname =>
      unfold labelAddress at h
      split at h
      · cases h
      · next address ha =>
        obtain ⟨hmax, rfl⟩ := (result_check_eq_ok_iff resolve).mp h
        exact ⟨he name _ ha, by omega⟩
    · obtain ⟨k, hk, h⟩ := (result_bind_eq_ok_iff resolve).mp h
      obtain ⟨hneg, rfl⟩ := (result_check_eq_ok_iff resolve).mp h
      exact ⟨by omega, (Operand.setting_range hk).2⟩

/-- The statement is encoded: its operands come to an instruction of its class that the instruction
set admits, and the word is that instruction packed. -/
structure Encodes (e : Encoding) (resolve : Text → Option Text) (s : Statement) (w : Word)
    (i : Instruction) : Prop where
  resolved : e.resolved? resolve s = some i
  toClass : s.class? = some i.toClass
  admits : e.isa.Admits i
  packed : e.isa.pack i = w

variable {w : Word}

theorem encodes_push (he : e.Sound) {operand : Text} (h : result resolve (e.push operand) = .ok w) :
    ∃ i, e.Encodes resolve (.push operand) w i := by
  simp only [push, result_guard_eq_ok_iff, result_bind_eq_ok_iff, result_pure] at h
  obtain ⟨-, n, hn, hw⟩ := h
  refine ⟨.push n, ?_, rfl, pushValue_range he hn, Except.ok.inj hw⟩
  simp [resolved?, number?_eq_some_iff.mpr hn]

theorem encodes_copy {operands : Text} (h : result resolve (e.copy operands) = .ok w) :
    ∃ i, e.Encodes resolve (.copy operands) w i := by
  unfold copy at h
  split at h
  · cases h
  · next source destination hp =>
    simp only [result_guard_eq_ok_iff, result_pure] at h
    obtain ⟨hs, hd, hw⟩ := h
    refine ⟨.copy source destination, ?_, rfl, ⟨⟨by omega, by omega⟩, by omega, by omega⟩, ?_⟩
    · simp [resolved?, hp]
    · exact (InstructionSet.pack_copy ..).trans (Except.ok.inj hw)

theorem encodes_jump {mnemonic : Text} (h : result resolve (e.jump mnemonic) = .ok w) :
    ∃ i, e.Encodes resolve (.jump mnemonic) w i := by
  unfold jump at h
  split at h
  · next code hc =>
    exact ⟨.jump code, by simp [resolved?, hc], rfl, ⟨mnemonic, hc⟩, Except.ok.inj h⟩
  · cases h

theorem encodes_operation {mnemonic : Text} (h : result resolve (e.operation mnemonic) = .ok w) :
    ∃ i, e.Encodes resolve (.operation mnemonic) w i := by
  unfold operation at h
  split at h
  · next code hc =>
    exact ⟨.operation code, by simp [resolved?, hc], rfl, ⟨mnemonic, hc⟩, Except.ok.inj h⟩
  · cases h

theorem encodes_peripheral {mnemonic operands : Text}
    (h : result resolve (e.peripheral mnemonic operands) = .ok w) :
    ∃ i, e.Encodes resolve (.peripheral mnemonic operands) w i := by
  unfold peripheral at h
  split at h
  · cases h
  · next code hc =>
    simp only [result_guard_eq_ok_iff, result_bind_eq_ok_iff] at h
    obtain ⟨n, hn, hrange, h⟩ := h
    have hn' := number?_eq_some_iff.mpr hn
    have hrange : 0 ≤ n ∧ n ≤ 7 := by simpa using hrange
    split at h
    · next hm =>
      subst hm
      rw [result_ite] at h
      split at h
      · refine ⟨.peripheral n 0 code, ?_, rfl, ⟨hrange, by decide, _, hc, fun _ => rfl⟩, ?_⟩
        · simp [resolved?, hn', hc]
        · exact (InstructionSet.pack_execute ..).trans (Except.ok.inj h)
      · cases h
    · next hm =>
      split at h
      · cases h
      · next rest hrest =>
        simp only [result_guard_eq_ok_iff, result_bind_eq_ok_iff, result_pure] at h
        obtain ⟨r, hr, hregister, hw⟩ := h
        have hr' := number?_eq_some_iff.mpr hr
        refine ⟨.peripheral n r code, ?_, rfl,
          ⟨hrange, by simpa using hregister, mnemonic, hc, fun h => absurd h hm⟩, ?_⟩
        · simp [resolved?, hn', hm, hrest, hr', hc]
        · exact (InstructionSet.pack_peripheral ..).trans (Except.ok.inj hw)

theorem encodes_system {operands : Text} (h : result resolve (e.system operands) = .ok w) :
    ∃ i, e.Encodes resolve (.system operands) w i := by
  unfold system at h
  split at h
  · next command token ho =>
    simp only [result_guard_eq_ok_iff, result_bind_eq_ok_iff, result_pure] at h
    obtain ⟨-, n, hn, hrange, hw⟩ := h
    refine ⟨.system e.isa.sysFlag n, ?_, rfl, ⟨rfl, by simpa using hrange⟩, ?_⟩
    · simp [resolved?, ho, number?_eq_some_iff.mpr hn]
    · exact (InstructionSet.pack_system ..).trans (Except.ok.inj hw)
  · cases h

/-- Whatever is encoded is a packed instruction. -/
theorem encodes_statement (he : e.Sound) {s : Statement}
    (h : result resolve (e.statement s) = .ok w) : ∃ i, e.Encodes resolve s w i := by
  cases s with
  | push operand => exact encodes_push he h
  | copy operands => exact encodes_copy h
  | jump mnemonic => exact encodes_jump h
  | operation mnemonic =>
    rw [statement, result_ite] at h
    split at h
    · exact encodes_operation h
    · cases h
  | peripheral mnemonic operands => exact encodes_peripheral h
  | system operands => exact encodes_system h
  | unknown mnemonic => cases h

end Encoding

end B100
