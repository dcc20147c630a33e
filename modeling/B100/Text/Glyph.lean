import B100.Text.Basic

/-! # Glyphs

A text is read as UTF-8 where it is well formed: `Text.glyphs` splits it into characters and the
stray bytes that belong to none. Nothing is lost (`ofGlyphs_glyphs`).
-/

namespace B100

/-- The character that a text begins with. -/
def Text.char? (s : Text) : Option Char := s.toByteArray.utf8DecodeChar? 0

theorem Text.char?_eq_some_iff {s : Text} {c : Char} :
    s.char? = some c ↔ String.utf8EncodeChar c <+: s := by
  constructor
  · intro h
    obtain ⟨rest, hrest⟩ := ByteArray.exists_of_utf8DecodeChar?_eq_some h
    refine ⟨rest.data.toList, ?_⟩
    apply List.toByteArray_inj.mp
    rw [List.toByteArray_append, hrest]
    simp [ByteArray.ext_iff]
  · rintro ⟨rest, rfl⟩
    rw [Text.char?, List.toByteArray_append]
    exact ByteArray.utf8DecodeChar?_utf8EncodeChar_append

/-- A unit of text: a well-formed character, or a byte that is part of none. -/
inductive Glyph where
  | char (c : Char)
  | stray (b : UInt8)
  deriving DecidableEq, Repr

namespace Glyph

def bytes : Glyph → Text
  | char c => String.utf8EncodeChar c
  | stray b => [b]

/-- The stray bytes at the front. -/
def strays : List Glyph → Text
  | stray b :: gs => b :: strays gs
  | _ => []

/-- Puts one more byte in front: it completes a character with the stray bytes after it, or
stays a stray byte itself. -/
def cons (b : UInt8) (gs : List Glyph) : List Glyph :=
  match Text.char? (b :: strays (gs.take 3)) with
  | some c => char c :: gs.drop (c.utf8Size - 1)
  | none => stray b :: gs

end Glyph

namespace Text

/-- The glyphs of a text, from left to right. No byte inside a character can begin one, so
reading from either end finds the same characters. -/
def glyphs (s : Text) : List Glyph := s.foldr Glyph.cons []

def ofGlyphs (gs : List Glyph) : Text := gs.flatMap Glyph.bytes

@[simp] theorem glyphs_nil : glyphs [] = [] := rfl

@[simp] theorem glyphs_cons (b : UInt8) (s : Text) :
    glyphs (b :: s) = Glyph.cons b (glyphs s) := rfl

@[simp] theorem ofGlyphs_nil : ofGlyphs [] = [] := rfl

@[simp] theorem ofGlyphs_cons (g : Glyph) (gs : List Glyph) :
    ofGlyphs (g :: gs) = g.bytes ++ ofGlyphs gs := by
  simp [ofGlyphs]

@[simp] theorem ofGlyphs_append (gs hs : List Glyph) :
    ofGlyphs (gs ++ hs) = ofGlyphs gs ++ ofGlyphs hs := by
  simp [ofGlyphs]

theorem ofGlyphs_eq_take_strays (gs : List Glyph) {n : Nat} (h : n ≤ (Glyph.strays gs).length) :
    ofGlyphs gs = (Glyph.strays gs).take n ++ ofGlyphs (gs.drop n) := by
  induction n generalizing gs with
  | zero => simp
  | succ n ih =>
    match gs, h with
    | [], h => simp [Glyph.strays] at h
    | .char c :: gs, h => simp [Glyph.strays] at h
    | .stray b :: gs, h =>
      have h : n ≤ (Glyph.strays gs).length := by simpa [Glyph.strays] using h
      simp [Glyph.strays, Glyph.bytes, ih gs h]

theorem strays_take_isPrefix (gs : List Glyph) (n : Nat) :
    Glyph.strays (gs.take n) <+: Glyph.strays gs := by
  induction gs generalizing n with
  | nil => simp [Glyph.strays]
  | cons g gs ih =>
    cases n with
    | zero => simp [Glyph.strays]
    | succ n => cases g <;> simp [Glyph.strays, ih]

theorem ofGlyphs_glyph_cons (b : UInt8) (gs : List Glyph) :
    ofGlyphs (Glyph.cons b gs) = b :: ofGlyphs gs := by
  unfold Glyph.cons
  split
  · next c hc =>
    have hp : String.utf8EncodeChar c <+: b :: Glyph.strays gs :=
      (char?_eq_some_iff.mp hc).trans ((List.prefix_cons_inj b).mpr (strays_take_isPrefix gs 3))
    have hlen : (String.utf8EncodeChar c).length = c.utf8Size := String.length_utf8EncodeChar c
    have hpos : 0 < c.utf8Size := c.utf8Size_pos
    have hle := hp.length_le
    have henc := List.prefix_iff_eq_take.mp hp
    rw [hlen] at hle henc
    obtain ⟨n, hn⟩ : ∃ n, c.utf8Size = n + 1 := ⟨c.utf8Size - 1, by omega⟩
    rw [hn, List.take_succ_cons] at henc
    have hs : n ≤ (Glyph.strays gs).length := by
      rw [hn] at hle
      simpa using hle
    rw [ofGlyphs_cons, Glyph.bytes, henc, hn, Nat.add_sub_cancel, ofGlyphs_eq_take_strays gs hs]
    simp
  · simp [Glyph.bytes]

@[simp] theorem ofGlyphs_glyphs (s : Text) : ofGlyphs (glyphs s) = s := by
  induction s with
  | nil => rfl
  | cons b s ih => rw [glyphs_cons, ofGlyphs_glyph_cons, ih]

end Text

end B100
