import B100.Source.Label
import B100.Text.Quoted
import B100.Word

/-! # Dumps

The label table and the program as they are shown on a terminal, in colour. Names are aligned by the
number of characters written, colour codes included.
-/

namespace B100

namespace Text

/-- Part of a quoted text: glyphs shown plainly, or one escape. -/
inductive Span where
  | plain (text : Text)
  | escape (text : Text)
  deriving DecidableEq, Repr

def Span.cons : Piece → List Span → List Span
  | .escape e, spans => .escape e :: spans
  | .plain g, .plain s :: spans => .plain (g.bytes ++ s) :: spans
  | .plain g, spans => .plain g.bytes :: spans

/-- A text between its quotes, in maximal plain runs and escapes. -/
def spans (s : Text) : List Span := (pieces s).foldr Span.cons []

end Text

namespace Dump

def red : Nat := 31

def green : Nat := 32

def blue : Nat := 34

def magenta : Nat := 35

/-- The control sequence that switches a display attribute on. -/
def display (code : Nat) : Text := "\x1b[" ++ Text.ofNat code ++ "m"

def coloured (colour : Nat) (s : Text) : Text := display colour ++ s ++ display 0

def bold (colour : Nat) (s : Text) : Text := display colour ++ display 1 ++ s ++ display 0

def span : Text.Span → Text
  | .plain s => coloured red s
  | .escape s => bold magenta s

def string (s : Text) : Text := bold red "\"" ++ s.spans.flatMap span ++ bold red "\""

def integer (n : Int) : Text := bold blue (Text.ofInt n)

def row (item : Text) : Text := "  " ++ item ++ ",\n"

/-- A type name and, between braces, one row an item. -/
def block (typeName : Text) (items : List Text) : Text :=
  if items.isEmpty then typeName ++ "\x7b\x7d\n"
  else typeName ++ "\x7b\n" ++ items.flatMap row ++ "\x7d\n"

def labels (table : Labels) : Text :=
  let rows := table.toList.map fun (name, address) => (string name ++ ":", address)
  let width := (rows.map fun (name, _) => name.glyphs.length).foldl max 0
  block ("assembler." ++ coloured green "Labels") <| rows.map fun (name, address) =>
    name ++ List.replicate (width + 1 - name.glyphs.length) ' '.toUInt8 ++ integer address

/-- A program of more than 1024 words is not listed. -/
def listing (p : Program) : Text :=
  let typeName := "[]" ++ coloured green "string"
  if 1024 < p.length then typeName ++ "\x7b...\x7d\n" else block typeName (p.listing.map string)

end Dump

end B100
