import B100.InstructionSet
import B100.Text.LowerCase

/-! # Statements

The form of an instruction line: its first word decides the class of the instruction, and the rest
are operands that only the encoder of that class reads. Jumps and operations are written without
operands, so a line of a single word is one of them.
-/

namespace B100

inductive Statement where
  | push (operand : Text)
  | copy (operands : Text)
  | jump (mnemonic : Text)
  | operation (mnemonic : Text)
  | peripheral (mnemonic operands : Text)
  | system (operands : Text)
  | unknown (mnemonic : Text)
  deriving DecidableEq, Repr

namespace Statement

/-- A mnemonic with operands. Only push, copy and sys may be written in any case. -/
def withOperands (mnemonic operands : Text) : Statement :=
  if ("io" : Text).isPrefixOf mnemonic then peripheral mnemonic operands
  else
    let name := mnemonic.lower
    if name = "push" then push operands
    else if name = "copy" then copy operands
    else if name = "sys" then system operands
    else unknown mnemonic

def ofText (line : Text) : Statement :=
  match line.cut Text.isSpaceOrTab with
  | (word, none) => if ("j" : Text).isPrefixOf word then jump word else operation word
  | (mnemonic, some rest) => withOperands mnemonic (rest.dropWhile Text.isSpaceOrTab)

def class? : Statement → Option Class
  | push _ => some .push
  | copy _ => some .copy
  | jump _ => some .jump
  | operation _ => some .alu
  | peripheral _ _ => some .io
  | system _ => some .sys
  | unknown _ => none

end Statement

end B100
