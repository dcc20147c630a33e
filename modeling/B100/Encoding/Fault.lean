import B100.Diagnostic
import B100.Literal

/-! # Faults

What can be wrong with an instruction, the kind of each fault and its message.
-/

namespace B100

inductive Fault where
  | notInstruction (text : Text)
  | notJump (mnemonic : Text)
  | notOperation (mnemonic : Text)
  | notPeripheralCommand (mnemonic : Text)
  | notSystemCommand (word : Text)
  | pushOperands
  | copyOperands (operands : Text)
  | executeOperands (operands : Text)
  | peripheralOperands (mnemonic : Text)
  | systemOperands
  | unboundLabel (name : Text)
  | distantLabel (name : Text) (address : Int)
  | sourceRegister (number : Nat)
  | destinationRegister (number : Nat)
  | peripheral (number : Int)
  | peripheralRegister (number : Int)
  | systemIndex (number : Int)
  | negativePush (value : Int)
  | negativeSetting (key : Text) (value : Int)
  | unknownSetting (key : Text)
  | unreadableSetting (key : Text) (error : LiteralError)
  deriving DecidableEq, Repr

namespace Fault

def kind : Fault → Kind
  | notInstruction _ | notJump _ | notOperation _ | notPeripheralCommand _ | notSystemCommand _ =>
    .unknownMnemonic
  | pushOperands | copyOperands _ | executeOperands _ | peripheralOperands _ | systemOperands =>
    .syntaxError
  | unboundLabel _ => .unknownLabel
  | distantLabel _ _ | sourceRegister _ | destinationRegister _ | peripheral _ |
    peripheralRegister _ | systemIndex _ => .outOfRange
  | negativePush _ | negativeSetting _ _ => .negativeOperand
  | unknownSetting _ | unreadableSetting _ _ => .invalidOperand

def mustBeBetween (what : Text) (number : Int) (greatest : Nat) : Text :=
  what ++ " " ++ Text.ofInt number ++ " must be between 0 and " ++ Text.ofNat greatest

def message : Fault → Text
  | notInstruction s => s.quote ++ " is not a valid instruction"
  | notJump m => "jump instruction " ++ m.quote ++ " is invalid"
  | notOperation m => m.quote ++ " is not an ALU operation"
  | notPeripheralCommand m => m.quote ++ " is not an I/O command"
  | notSystemCommand w => "unrecognized system command " ++ w.quote
  | pushOperands => "push takes exactly one operand"
  | copyOperands s => "copy expects two registers, e.g. copy 3,9 (got " ++ s.quote ++ ")"
  | executeOperands s => "ioex takes a single peripheral (got " ++ s.quote ++ ")"
  | peripheralOperands m => m ++ " expects <peripheral>,<register>"
  | systemOperands => "sys expects a command and one argument"
  | unboundLabel name => "label " ++ name.quote ++ " does not exist"
  | distantLabel name address =>
    "label " ++ name.quote ++ " address " ++ Text.ofInt address ++ " does not fit in 15 bits"
  | sourceRegister n => mustBeBetween "source register" n 15
  | destinationRegister n => mustBeBetween "destination register" n 15
  | peripheral n => mustBeBetween "peripheral" n 7
  | peripheralRegister n => mustBeBetween "peripheral register" n 15
  | systemIndex n => mustBeBetween "command index" n 255
  | negativePush v => "push cannot be negative (" ++ Text.ofInt v ++ ")"
  | negativeSetting key v => "push cannot be negative (" ++ key ++ " = " ++ Text.ofInt v ++ ")"
  | unknownSetting key => key.quote ++ " is neither a number nor a known config key"
  | unreadableSetting key _ => "config key " ++ key

def cause? : Fault → Option Cause
  | unreadableSetting _ error => some { text := error.message }
  | _ => none

end Fault

/-- A fault in a line of a source. -/
structure SourceError where
  line : Int
  fault : Fault
  deriving DecidableEq, Repr

def SourceError.diagnostic (e : SourceError) : Diagnostic where
  code := e.fault.kind.code
  line := e.line
  message := e.fault.message
  cause := e.fault.cause?

end B100
