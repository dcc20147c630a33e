import B100.Text.Basic

/-! # Words and images

A program is a list of 16-bit words; the position of a word is its address. Its image is the same
words as bytes, high byte first, with nothing before or between them.
-/

namespace B100

abbrev Word := UInt16

abbrev Program := List Word

namespace Word

def bytes (w : Word) : Text := [(w >>> 8).toUInt8, w.toUInt8]

def ofBytes (high low : UInt8) : Word := high.toUInt16 <<< 8 ||| low.toUInt16

/-- The low 16 bits of an integer in two's complement. -/
def ofInt (n : Int) : Word := UInt16.ofInt n

end Word

namespace Image

/-- Adds words at the end of an image. -/
def append (image : Text) (words : List Word) : Text := image ++ words.flatMap Word.bytes

def words? : Text → Option (List Word)
  | [] => some []
  | [_] => none
  | high :: low :: rest => (words? rest).map (Word.ofBytes high low :: ·)

/-- An image whose length is odd. -/
structure OddLength where
  length : Nat
  deriving DecidableEq, Repr

def OddLength.message (e : OddLength) : Text :=
  "image length " ++ Text.ofNat e.length ++ " is not a whole number of words"

def words (image : Text) : Except OddLength (List Word) :=
  match words? image with
  | some ws => .ok ws
  | none => .error ⟨image.length⟩

end Image

def Program.image (p : Program) : Text := Image.append [] p

/-- Writes the image to something that takes at most so many bytes at once: the bytes it takes, and
whether they are all. -/
def Program.writeTo (p : Program) (room : Option Nat) : Text × Bool :=
  match room with
  | none => (p.image, true)
  | some n => (p.image.take n, p.image.length ≤ n)

/-- One line a word: its address and its value in hexadecimal. -/
def Program.listing (p : Program) : List Text :=
  p.zipIdx.map fun (w, i) =>
    Text.hexCapital 4 i ++ ": " ++ Text.hexCapital 4 w.toNat

end B100
