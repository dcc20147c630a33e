import B100.Text.Blank

/-! # Source lines

A source is read once and split into lines; both passes of the assembler go over the same lines.
A line is a comment, a label definition, or an instruction that takes up one word.
-/

namespace B100

inductive LineKind where
  | comment
  | label
  | instruction
  deriving DecidableEq, Repr

namespace LineKind

/-- The kind of a trimmed line. A line of fewer than two glyphs is too short to mean anything. -/
def ofTrimmed (text : Text) : LineKind :=
  if text.glyphs.length < 2 || ("#" : Text).isPrefixOf text then comment
  else if (":" : Text).isPrefixOf text then label
  else instruction

def classify (raw : Text) : LineKind := ofTrimmed raw.trim

def number : LineKind → Nat
  | comment => 0
  | label => 1
  | instruction => 2

/-- The kind with a number. Lines of any other number are skipped, as comments are. -/
def ofNumber (n : Int) : LineKind :=
  if n = label.number then label else if n = instruction.number then instruction else comment

end LineKind

structure Line where
  /-- The line without the blanks around it. -/
  text : Text
  /-- Lines of a source count from one. -/
  number : Int
  kind : LineKind
  deriving DecidableEq, Repr

namespace Line

def ofRaw (raw : Text) (index : Nat) : Line where
  text := raw.trim
  number := index + 1
  kind := LineKind.classify raw

/-- The name that a label line defines. -/
def label (l : Line) : Text := (l.text.after? ":").getD l.text

def isInstruction (l : Line) : Bool := l.kind == .instruction

end Line

namespace Source

/-- The text between line feeds. A line feed at the end starts no further line. A carriage return
before a line feed is blank, so it never reaches the text of a line. -/
def rawLines (src : Text) : List Text :=
  let pieces := src.splitOn '\n'.toUInt8
  if pieces.getLast? == some [] then pieces.dropLast else pieces

def lines (src : Text) : List Line := (rawLines src).zipIdx.map fun (raw, i) => Line.ofRaw raw i

end Source

end B100
