import B100.Text.Glyph
import B100.Text.Printable

/-! # Quoted text

How messages show a name: between double quotes, with everything that would not print replaced
by an escape. Every text has a quoted form, and it is always well-formed UTF-8.
-/

namespace B100

/-- The escape of a glyph between double quotes, if it needs one. -/
def Glyph.escape? : Glyph → Option Text
  | stray b => some ("\\x" ++ Text.hex 2 b.toNat)
  | char c =>
    if c = '"' then some "\\\""
    else if c = '\\' then some "\\\\"
    else if isPrintable c then none
    else match c.toNat with
      | 0x07 => some "\\a"
      | 0x08 => some "\\b"
      | 0x0C => some "\\f"
      | 0x0A => some "\\n"
      | 0x0D => some "\\r"
      | 0x09 => some "\\t"
      | 0x0B => some "\\v"
      | n =>
        if n < 0x20 || n == 0x7F then some ("\\x" ++ Text.hex 2 n)
        else if n < 0x10000 then some ("\\u" ++ Text.hex 4 n)
        else some ("\\U" ++ Text.hex 8 n)

namespace Text

/-- A quoted text between its quotes, as a sequence of glyphs shown plainly and escapes. -/
inductive Piece where
  | plain (g : Glyph)
  | escape (e : Text)
  deriving DecidableEq, Repr

def Piece.ofGlyph (g : Glyph) : Piece :=
  match g.escape? with
  | some e => .escape e
  | none => .plain g

def Piece.text : Piece → Text
  | plain g => g.bytes
  | escape e => e

def pieces (s : Text) : List Piece := (glyphs s).map Piece.ofGlyph

/-- A text between double quotes. -/
def quote (s : Text) : Text := "\"" ++ (pieces s).flatMap Piece.text ++ "\""

end Text

end B100
