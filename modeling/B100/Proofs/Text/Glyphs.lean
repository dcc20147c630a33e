import B100.Proofs.Text.Ascii

/-! # Taking texts apart into glyphs

Characters delimit themselves. So the glyphs of a text that is put together are the glyphs of its
parts, unless the second part begins with stray bytes that could complete a character of the first.
-/

namespace B100

namespace Glyph

/-- A byte that begins no character stays by itself. -/
theorem cons_of_not_first {b : UInt8} (hb : ¬ b.IsUTF8FirstByte) (gs : List Glyph) :
    cons b gs = stray b :: gs := by
  have hn : Text.char? (b :: strays (gs.take 3)) = none := by
    rw [Option.eq_none_iff_forall_ne_some]
    intro c hc
    obtain ⟨t, ht⟩ := Text.char?_eq_some_iff.mp hc
    have hpos : 0 < (String.utf8EncodeChar c).length := by
      rw [String.length_utf8EncodeChar]
      exact c.utf8Size_pos
    have hfirst : (String.utf8EncodeChar c)[0] = b := by
      have h := congrArg (·[0]?) ht
      simpa [List.getElem?_append_left hpos, List.getElem?_eq_getElem hpos] using h
    exact hb (hfirst ▸ UInt8.isUTF8FirstByte_getElem_utf8EncodeChar.mpr rfl)
  rw [cons, hn]

theorem strays_map_stray_append (t : Text) (gs : List Glyph) :
    strays (t.map stray ++ gs) = t ++ strays gs := by
  induction t with
  | nil => rfl
  | cons b t ih => simp [strays, ih]

theorem length_strays_le (gs : List Glyph) : (strays gs).length ≤ gs.length := by
  induction gs with
  | nil => exact Nat.le_refl _
  | cons g gs ih => cases g <;> simp [strays, ih]

theorem strays_take_append_char (gs : List Glyph) (c : Char) (hs : List Glyph) (n : Nat) :
    strays ((gs ++ char c :: hs).take n) = strays (gs.take n) := by
  induction gs generalizing n with
  | nil => cases n <;> rfl
  | cons g gs ih =>
    cases n with
    | zero => rfl
    | succ n => cases g <;> simp [strays, ih]

theorem cons_append_char (b : UInt8) (gs : List Glyph) (c : Char) (hs : List Glyph) :
    cons b (gs ++ char c :: hs) = cons b gs ++ char c :: hs := by
  simp only [cons, strays_take_append_char]
  split
  · next d hd =>
    -- The character is made of `b` and stray bytes of `gs`, so it ends within `gs`.
    have hle := (Text.char?_eq_some_iff.mp hd).length_le
    have hstrays := length_strays_le (gs.take 3)
    have htake := List.length_take_le' 3 gs
    rw [String.length_utf8EncodeChar, List.length_cons] at hle
    rw [List.drop_append_of_le_length (by omega), List.cons_append]
  · rfl

end Glyph

namespace Text

theorem glyphs_append_of_not_first {t : Text} (h : ∀ b ∈ t, ¬ b.IsUTF8FirstByte) (s : Text) :
    glyphs (t ++ s) = t.map Glyph.stray ++ glyphs s := by
  induction t with
  | nil => rfl
  | cons b t ih =>
    rw [List.cons_append, glyphs_cons, ih fun c hc => h c (List.mem_cons_of_mem b hc),
      Glyph.cons_of_not_first (h b List.mem_cons_self)]
    rfl

theorem exists_utf8EncodeChar_eq_cons (c : Char) :
    ∃ b t, String.utf8EncodeChar c = b :: t ∧ ∀ x ∈ t, ¬ x.IsUTF8FirstByte := by
  have hlen : (String.utf8EncodeChar c).length = c.utf8Size := String.length_utf8EncodeChar c
  have hpos : 0 < c.utf8Size := c.utf8Size_pos
  obtain ⟨b, t, hc⟩ := List.exists_cons_of_length_pos (hlen ▸ hpos)
  refine ⟨b, t, hc, fun x hx hfirst => ?_⟩
  obtain ⟨i, hi, rfl⟩ := List.mem_iff_getElem.mp hx
  have hi' : i + 1 < (String.utf8EncodeChar c).length := by
    rw [hc]
    exact Nat.succ_lt_succ hi
  have hget : (String.utf8EncodeChar c)[i + 1] = t[i] := by
    simp only [hc, List.getElem_cons_succ]
  exact absurd (UInt8.isUTF8FirstByte_getElem_utf8EncodeChar.mp (hget ▸ hfirst)) (by omega)

/-- A character in front of a text is read back, whatever the text begins with. -/
theorem glyphs_utf8EncodeChar_append (c : Char) (s : Text) :
    glyphs (String.utf8EncodeChar c ++ s) = .char c :: glyphs s := by
  obtain ⟨b, t, hc, ht⟩ := exists_utf8EncodeChar_eq_cons c
  have hlen : t.length + 1 = c.utf8Size := by
    rw [← String.length_utf8EncodeChar, hc, List.length_cons]
  have hle := c.utf8Size_le_four
  have hchar : char? (b :: Glyph.strays ((t.map Glyph.stray ++ glyphs s).take 3)) = some c := by
    rw [char?_eq_some_iff, hc, List.take_append, List.take_of_length_le (by simp; omega),
      Glyph.strays_map_stray_append, List.prefix_cons_inj]
    exact List.prefix_append _ _
  rw [hc, List.cons_append, glyphs_cons, glyphs_append_of_not_first ht, Glyph.cons, hchar]
  simp [← hlen]

theorem glyphs_ofGlyphs_append {gs : List Glyph} (h : ∀ g ∈ gs, ∃ c, g = .char c) (s : Text) :
    glyphs (ofGlyphs gs ++ s) = gs ++ glyphs s := by
  induction gs with
  | nil => rfl
  | cons g gs ih =>
    obtain ⟨c, rfl⟩ := h g List.mem_cons_self
    rw [ofGlyphs_cons, Glyph.bytes, List.append_assoc, glyphs_utf8EncodeChar_append,
      ih fun g hg => h g (List.mem_cons_of_mem _ hg), List.cons_append]

theorem glyphs_ofGlyphs {gs : List Glyph} (h : ∀ g ∈ gs, ∃ c, g = .char c) :
    glyphs (ofGlyphs gs) = gs := by
  simpa using glyphs_ofGlyphs_append h []

/-- A text that begins with a character, or is empty, leaves the glyphs before it alone. -/
theorem glyphs_append {t : Text} (h : ∀ b, t.glyphs.head? ≠ some (.stray b)) (s : Text) :
    glyphs (s ++ t) = glyphs s ++ glyphs t := by
  induction s with
  | nil => rfl
  | cons b s ih =>
    rw [List.cons_append, glyphs_cons, ih, glyphs_cons]
    cases ht : t.glyphs with
    | nil => simp
    | cons g gs =>
      cases g with
      | char c => exact Glyph.cons_append_char b (glyphs s) c gs
      | stray x => exact absurd (by simp [ht]) (h x)

theorem head?_glyphs_eq_char_iff {s : Text} {c : Char} :
    s.glyphs.head? = some (.char c) ↔ String.utf8EncodeChar c <+: s := by
  constructor
  · intro h
    obtain ⟨gs, hgs⟩ := List.head?_eq_some_iff.mp h
    exact ⟨ofGlyphs gs, by rw [← ofGlyphs_glyphs s, hgs, ofGlyphs_cons, Glyph.bytes]⟩
  · rintro ⟨t, rfl⟩
    rw [glyphs_utf8EncodeChar_append, List.head?_cons]

theorem getLast?_glyphs_eq_char_iff {s : Text} {c : Char} :
    s.glyphs.getLast? = some (.char c) ↔ String.utf8EncodeChar c <:+ s := by
  constructor
  · intro h
    obtain ⟨gs, hgs⟩ := List.getLast?_eq_some_iff.mp h
    refine ⟨ofGlyphs gs, ?_⟩
    rw [← ofGlyphs_glyphs s, hgs, ofGlyphs_append, ofGlyphs_cons, ofGlyphs_nil, List.append_nil,
      Glyph.bytes]
  · rintro ⟨t, rfl⟩
    have hc : glyphs (String.utf8EncodeChar c) = [.char c] := by
      simpa using glyphs_utf8EncodeChar_append c []
    rw [glyphs_append (by simp [hc]), hc, List.getLast?_concat]

theorem glyphs_append_ascii {b : UInt8} (hb : b < 0x80) (s t : Text) :
    glyphs (s ++ b :: t) = glyphs s ++ Glyph.ofByte b :: glyphs t := by
  have ht : glyphs (b :: t) = Glyph.ofByte b :: glyphs t := Glyph.cons_of_ascii hb _
  rw [glyphs_append (by simp [ht, Glyph.ofByte]), ht]

theorem glyphs_ascii_append {s : Text} (h : ∀ b ∈ s, b < 0x80) (t : Text) :
    glyphs (s ++ t) = glyphs s ++ glyphs t := by
  rw [glyphs_of_ascii h, ← glyphs_ofGlyphs_append _ t, ofGlyphs_map_ofByte h]
  intro g hg
  obtain ⟨b, -, rfl⟩ := List.mem_map.mp hg
  exact ⟨_, rfl⟩

end Text

end B100
