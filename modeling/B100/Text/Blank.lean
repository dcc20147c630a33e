import B100.Text.Glyph

/-! # Blank space

The characters with the Unicode property `White_Space`, and the two operations on text that
depend on them: trimming and splitting into fields. A stray byte is never blank, even where the
character of that number is.
-/

namespace B100

/-- The white-space characters of Unicode. -/
def isBlankChar (c : Char) : Bool :=
  let n := c.toNat
  (0x09 ≤ n && n ≤ 0x0D) || n == 0x20 || n == 0x85 || n == 0xA0 || n == 0x1680 ||
    (0x2000 ≤ n && n ≤ 0x200A) || n == 0x2028 || n == 0x2029 || n == 0x202F || n == 0x205F ||
    n == 0x3000

def Glyph.isBlank : Glyph → Bool
  | char c => isBlankChar c
  | stray _ => false

namespace Text

/-- Removes the blank glyphs at the front. -/
def trimLeft (s : Text) : Text := ofGlyphs ((glyphs s).dropWhile Glyph.isBlank)

/-- Removes the blank glyphs at both ends. -/
def trim (s : Text) : Text :=
  ofGlyphs (((glyphs s).dropWhile Glyph.isBlank).reverse.dropWhile Glyph.isBlank).reverse

/-- The maximal runs of glyphs that are not blank. -/
def fields (s : Text) : List Text :=
  (((glyphs s).splitOnP Glyph.isBlank).filter (!·.isEmpty)).map ofGlyphs

end Text

end B100
