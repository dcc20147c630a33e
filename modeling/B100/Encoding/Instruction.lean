import B100.Encoding.Operand
import B100.Encoding.Statement
import B100.Source.Label

/-! # Encoding instructions

The second pass encodes one instruction line into one word, given the instruction set and the
complete label table. Where an instruction has several faults, the order of the checks decides which
is reported.
-/

namespace B100

structure Encoding where
  isa : InstructionSet
  labels : Labels

namespace Encoding

variable (e : Encoding)

/-- The address of a label, which has to fit beside the tag of a push. -/
def labelAddress (name : Text) : Encoder Int :=
  match e.labels[name]? with
  | none => throw (.unboundLabel name)
  | some address => if 0x7FFF < address then throw (.distantLabel name address) else return address

/-- The value to push: a literal, a label's address, or a setting. -/
def pushValue (operand : Text) : Encoder Int :=
  match Literal.short operand with
  | .ok n => if n < 0 then throw (.negativePush n) else return n
  | .error _ =>
    match operand.after? "$lbl." with
    | some name => e.labelAddress name
    | none => do
      let n ← Operand.setting operand
      if n < 0 then throw (.negativeSetting operand n) else return n

def push (operand : Text) : Encoder Word := do
  let operand := operand.trim
  if operand.any Text.isSpaceOrTab then throw .pushOperands
  let n ← e.pushValue operand
  return e.isa.tag .push ||| Word.ofInt n

def copy (operands : Text) : Encoder Word := do
  match Operand.registerPair? operands with
  | none => throw (.copyOperands operands)
  | some (source, destination) =>
    if 15 < source then throw (.sourceRegister source)
    if 15 < destination then throw (.destinationRegister destination)
    return e.isa.tag .copy ||| Word.ofInt source <<< 8 ||| Word.ofInt destination <<< 4

def jump (mnemonic : Text) : Encoder Word :=
  match e.isa.jump[mnemonic]? with
  | some code => return e.isa.tag .jump ||| code
  | none => throw (.notJump mnemonic)

def operation (mnemonic : Text) : Encoder Word :=
  match e.isa.alu[mnemonic]? with
  | some code => return e.isa.tag .alu ||| code
  | none => throw (.notOperation mnemonic)

/-- Commands to a peripheral name it first. Executing takes nothing else; every other command goes
on with a comma and a register of the peripheral. -/
def peripheral (mnemonic operands : Text) : Encoder Word := do
  match e.isa.io[mnemonic]? with
  | none => throw (.notPeripheralCommand mnemonic)
  | some code =>
    let operands := operands.trim
    let (first, rest) := operands.cut (· == ','.toUInt8)
    let number ← Operand.index first.trim.lower
    if number < 0 || 7 < number then throw (.peripheral number)
    let word := e.isa.tag .io ||| Word.ofInt number <<< 8
    if mnemonic = "ioex" then
      if Operand.isOneOrTwoDigits operands || Operand.isSectionKey operands then
        return word ||| code
      else throw (.executeOperands operands)
    else
      match rest with
      | none => throw (.peripheralOperands mnemonic)
      | some rest =>
        let register ← Operand.index rest.trim.lower
        if register < 0 || 15 < register then throw (.peripheralRegister register)
        return word ||| Word.ofInt register <<< 4 ||| code

def system (operands : Text) : Encoder Word := do
  match operands.fields with
  | [command, token] =>
    if command ≠ "cmd" then throw (.notSystemCommand command)
    let index ← Operand.short token.lower
    if index < 0 || 255 < index then throw (.systemIndex index)
    return e.isa.tag .sys ||| e.isa.sysFlag ||| Word.ofInt index
  | _ => throw .systemOperands

def statement : Statement → Encoder Word
  | .push operand => e.push operand
  | .copy operands => e.copy operands
  | .jump mnemonic => e.jump mnemonic
  | .operation mnemonic =>
    if mnemonic ∈ e.isa.alu then e.operation mnemonic else throw (.notInstruction mnemonic)
  | .peripheral mnemonic operands => e.peripheral mnemonic operands
  | .system operands => e.system operands
  | .unknown mnemonic => throw (.notInstruction mnemonic)

/-- The word of an instruction line. -/
def instruction (text : Text) : Encoder Word := e.statement (Statement.ofText text)

/-- The settings that a line asks for, and its word or what is wrong with it. -/
def line (resolve : Text → Option Text) (l : Line) : List Lookup × Except SourceError Word :=
  let (lookups, result) := (e.instruction l.text).run.run resolve
  (lookups, result.mapError (⟨l.number, ·⟩))

end Encoding

end B100
