/-! # Text

Source lines, names and messages are byte strings: whatever the files on disk hold. This module has
numerals and the ways to cut a text at a byte or at another text.
-/

namespace B100

/-- A byte string. It need not be well-formed UTF-8. -/
abbrev Text := List UInt8

namespace Text

/-- The UTF-8 form of a string. -/
def utf8 (s : String) : Text := s.toByteArray.data.toList

instance : Coe String Text := ⟨utf8⟩

/-- The decimal numeral of a natural number, without leading zeros. -/
def ofNat (n : Nat) : Text := (Nat.toDigits 10 n).map Char.toUInt8

/-- The decimal numeral of an integer, with a sign only when it is negative. -/
def ofInt (n : Int) : Text := if n < 0 then '-'.toUInt8 :: ofNat n.natAbs else ofNat n.natAbs

/-- Fills a numeral up with zeros in front. -/
def padded (width : Nat) (numeral : Text) : Text :=
  List.replicate (width - numeral.length) '0'.toUInt8 ++ numeral

/-- The hexadecimal numeral in small letters, of at least the given width. -/
def hex (width n : Nat) : Text := padded width ((Nat.toDigits 16 n).map Char.toUInt8)

/-- The hexadecimal numeral in capitals, of at least the given width. -/
def hexCapital (width n : Nat) : Text :=
  padded width ((Nat.toDigits 16 n).map fun c => c.toUpper.toUInt8)

def isSpaceOrTab (b : UInt8) : Bool := b == ' '.toUInt8 || b == '\t'.toUInt8

/-- The part before the first byte with the property and, if there is one, the part after it. -/
def cut (s : Text) (p : UInt8 → Bool) : Text × Option Text :=
  match s.span (!p ·) with
  | (before, []) => (before, none)
  | (before, _ :: after) => (before, some after)

/-- The part before the last byte with the property and the part after it. -/
def cutLast? (s : Text) (p : UInt8 → Bool) : Option (Text × Text) :=
  match cut s.reverse p with
  | (_, none) => none
  | (after, some before) => some (before.reverse, after.reverse)

/-- The text after a given beginning. -/
def after? (s beginning : Text) : Option Text :=
  if beginning.isPrefixOf s then some (s.drop beginning.length) else none

/-- The parts before and after the first occurrence of a text. -/
def cutText? : Text → Text → Option (Text × Text)
  | [], mark => if mark.isEmpty then some ([], []) else none
  | b :: s, mark =>
    match after? (b :: s) mark with
    | some rest => some ([], rest)
    | none => (cutText? s mark).map fun (before, rest) => (b :: before, rest)

/-- The parts before and after the last occurrence of a text. -/
def cutLastText? (s mark : Text) : Option (Text × Text) :=
  (cutText? s.reverse mark.reverse).map fun (rest, before) => (before.reverse, rest.reverse)

end Text

end B100
