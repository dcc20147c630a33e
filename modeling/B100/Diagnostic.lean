import B100.Text.Basic

/-! # Diagnostics

The report of a failure: its kind, the source line if there is one, a message and the text of the
cause. The kind decides the exit status of the tool.
-/

namespace B100

inductive Kind where
  | syntaxError
  | unknownMnemonic
  | unknownLabel
  | outOfRange
  | negativeOperand
  | invalidOperand
  | fileError
  deriving DecidableEq, Repr

namespace Kind

def all : List Kind :=
  [syntaxError, unknownMnemonic, unknownLabel, outOfRange, negativeOperand, invalidOperand,
    fileError]

def code : Kind → Nat
  | syntaxError => 1
  | unknownMnemonic => 2
  | unknownLabel => 3
  | outOfRange => 4
  | negativeOperand => 5
  | invalidOperand => 6
  | fileError => 7

def ofCode? (code : Int) : Option Kind := all.find? fun k => k.code == code

def name : Kind → Text
  | syntaxError => "syntax error"
  | unknownMnemonic => "unknown mnemonic"
  | unknownLabel => "unknown label"
  | outOfRange => "out of range"
  | negativeOperand => "negative operand"
  | invalidOperand => "invalid operand"
  | fileError => "i/o failure"

/-- The name of the kind with a code; other codes are shown as numbers. -/
def nameOfCode (code : Int) : Text :=
  match ofCode? code with
  | some k => k.name
  | none => "kind(" ++ Text.ofInt code ++ ")"

/-- Status 1 is kept for wrong usage, so the kinds start at 2. -/
def exitStatus (k : Kind) : Nat := k.code + 1

end Kind

/-- What lies behind a failure. -/
structure Cause where
  text : Text
  /-- Is it that a file does not exist? -/
  missingFile : Bool := false
  deriving DecidableEq, Repr

structure Diagnostic where
  code : Int
  /-- The source line; zero if there is none. -/
  line : Int := 0
  message : Text
  cause : Option Cause := none
  deriving DecidableEq, Repr

namespace Diagnostic

def kind? (d : Diagnostic) : Option Kind := Kind.ofCode? d.code

def detail (d : Diagnostic) : Text :=
  match d.cause with
  | some cause => d.message ++ ": " ++ cause.text
  | none => d.message

def text (d : Diagnostic) : Text :=
  let report := Kind.nameOfCode d.code ++ ": " ++ d.detail
  if 0 < d.line then "line " ++ Text.ofInt d.line ++ ": " ++ report else report

end Diagnostic

/-- A failure as it reaches the outside: a diagnostic or any other error, possibly reported in the
context of something else. -/
inductive Failure where
  | other (text : Text)
  | diagnostic (d : Diagnostic)
  | within (context : Text) (inner : Failure)
  deriving DecidableEq, Repr

namespace Failure

def text : Failure → Text
  | other s => s
  | diagnostic d => d.text
  | within context inner => context ++ ": " ++ inner.text

def diagnostic? : Failure → Option Diagnostic
  | other _ => none
  | diagnostic d => some d
  | within _ inner => inner.diagnostic?

/-- The text of what the failure was raised from. -/
def cause? : Failure → Option Text
  | other _ => none
  | diagnostic d => d.cause.map Cause.text
  | within _ inner => some inner.text

end Failure

/-- The status of the tool after a run: zero if nothing failed, the status of the diagnostic's
kind, and that of a file error for every other failure. -/
def exitStatus : Option Failure → Nat
  | none => 0
  | some f => ((f.diagnostic?.bind Diagnostic.kind?).getD .fileError).exitStatus

end B100
