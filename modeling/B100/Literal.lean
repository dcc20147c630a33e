import B100.Text.Quoted

/-! # Number literals

Two spellings of a signed 16-bit number. A *short* is decimal, octal after a leading zero, or
hexadecimal after `0x`, `0X` or `#`, with the sign in front of everything. An *index* is decimal, or
hexadecimal after `0x`, and its sign stands right before its digits.
-/

namespace B100

inductive LiteralError where
  | malformed (text : Text)
  | tooWide (text : Text)
  | notIndex (text : Text)
  deriving DecidableEq, Repr

def LiteralError.message : LiteralError → Text
  | malformed s => "invalid number " ++ s.quote
  | tooWide s => s.quote ++ " does not fit in 16 bits"
  | notIndex s => "invalid index " ++ s.quote

namespace Literal

/-- The value of a byte as a digit, with letters of either case from ten. -/
def digit? (b : UInt8) : Option Nat :=
  let n := b.toNat
  if '0'.toNat ≤ n && n ≤ '9'.toNat then some (n - '0'.toNat)
  else if 'a'.toNat ≤ n && n ≤ 'z'.toNat then some (n - 'a'.toNat + 10)
  else if 'A'.toNat ≤ n && n ≤ 'Z'.toNat then some (n - 'A'.toNat + 10)
  else none

def digitIn? (base : Nat) (b : UInt8) : Option Nat := (digit? b).filter (· < base)

/-- The value of a nonempty run of digits. -/
def natural? (base : Nat) (s : Text) : Option Nat :=
  if s.isEmpty then none
  else s.foldlM (fun n b => (digitIn? base b).map (n * base + ·)) 0

/-- Takes a sign off the front: is it a minus, and what follows? -/
def sign (s : Text) : Bool × Text :=
  match s with
  | [] => (false, [])
  | b :: rest =>
    if b == '-'.toUInt8 then (true, rest)
    else if b == '+'.toUInt8 then (false, rest)
    else (false, s)

def signed (negative : Bool) (n : Nat) : Int := if negative then -n else n

/-- Is it a signed 16-bit number? -/
def isShort (n : Int) : Bool := -0x8000 ≤ n && n ≤ 0x7FFF

/-- The base that an unsigned short announces, and its digits. -/
def radix (s : Text) : Nat × Text :=
  match s.after? "0x", s.after? "0X", s.after? "#", s with
  | some digits, _, _, _ => (16, digits)
  | none, some digits, _, _ => (16, digits)
  | none, none, some digits, _ => (16, digits)
  | none, none, none, b :: c :: rest => if b == '0'.toUInt8 then (8, c :: rest) else (10, s)
  | none, none, none, _ => (10, s)

/-- Reads a short. A magnitude of more than 31 bits counts as malformed, not as too wide. -/
def short (s : Text) : Except LiteralError Int :=
  let (negative, unsigned) := sign s
  let (base, digits) := radix unsigned
  match natural? base digits with
  | none => .error (.malformed s)
  | some n =>
    if 0x7FFFFFFF < n then .error (.malformed s)
    else if isShort (signed negative n) then .ok (signed negative n)
    else .error (.tooWide s)

/-- Reads an index. -/
def index (s : Text) : Except LiteralError Int :=
  let (base, numeral) := match s.after? "0x" with
    | some rest => (16, rest)
    | none => (10, s)
  let (negative, digits) := sign numeral
  match natural? base digits with
  | none => .error (.notIndex s)
  | some n =>
    if isShort (signed negative n) then .ok (signed negative n) else .error (.notIndex s)

end Literal

end B100
