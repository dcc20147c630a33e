import B100.Encoding.Fault
import B100.Settings.Inquiry
import B100.Text.Blank
import B100.Text.LowerCase

/-! # Operands

How the operands of an instruction become numbers. A token that is not itself a number is a key of
the settings, and what the settings bind it to must be a short.
-/

namespace B100

/-- An encoder may ask for settings and may fail. -/
abbrev Encoder := ExceptT Fault Inquiry

namespace Operand

/-- The number that the settings bind a key to. -/
def setting (key : Text) : Encoder Int := do
  match ← Inquiry.value key with
  | none => throw (.unknownSetting key)
  | some value =>
    match Literal.short value.trim with
    | .ok n => return n
    | .error e => throw (.unreadableSetting key e)

/-- A short, or the number of a setting. -/
def short (token : Text) : Encoder Int :=
  match Literal.short token with
  | .ok n => return n
  | .error _ => setting token

/-- An index, or the number of a setting. -/
def index (token : Text) : Encoder Int :=
  match Literal.index token with
  | .ok n => return n
  | .error _ => setting token

def isDigit (b : UInt8) : Bool := '0'.toUInt8 ≤ b && b ≤ '9'.toUInt8

def isWordByte (b : UInt8) : Bool :=
  isDigit b || ('A'.toUInt8 ≤ b && b ≤ 'Z'.toUInt8) || ('a'.toUInt8 ≤ b && b ≤ 'z'.toUInt8) ||
    b == '_'.toUInt8

/-- Space, tab, line feed, form feed and carriage return. -/
def isSpacing (b : UInt8) : Bool := [0x20, 0x09, 0x0A, 0x0C, 0x0D].contains b

def isOneOrTwoDigits (s : Text) : Bool := 0 < s.length && s.length ≤ 2 && s.all isDigit

def stripSpacing (s : Text) : Text :=
  ((s.dropWhile isSpacing).reverse.dropWhile isSpacing).reverse

/-- A register number of one or two digits with spacing around it. -/
def register? (s : Text) : Option Nat :=
  let digits := stripSpacing s
  if isOneOrTwoDigits digits then Literal.natural? 10 digits else none

/-- Two register numbers with a comma between them. -/
def registerPair? (s : Text) : Option (Nat × Nat) :=
  match s.cut (· == ','.toUInt8) with
  | (_, none) => none
  | (a, some b) =>
    match register? a, register? b with
    | some source, some destination => some (source, destination)
    | _, _ => none

def isWord (s : Text) : Bool := !s.isEmpty && s.all isWordByte

/-- A key of a section, spelled `$conf.` and two words. -/
def isSectionKey (s : Text) : Bool :=
  match s.after? "$conf." with
  | none => false
  | some rest =>
    match rest.splitOn '.'.toUInt8 with
    | [a, b] => isWord a && isWord b
    | _ => false

end Operand

end B100
