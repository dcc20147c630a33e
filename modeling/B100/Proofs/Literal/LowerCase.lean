import B100.Proofs.Literal.Grammar
import B100.Proofs.Text.LowerCase

/-! # Numbers in lower case

Lower case changes neither whether a text is a number nor which. The letters in a number are ASCII,
and no other character becomes a digit, a sign or a mark.
-/

namespace B100

open Text

namespace Literal

def numberBytes : Text := '+'.toUInt8 :: '-'.toUInt8 :: magnitudeBytes

theorem range_of_mem_numberBytes {b : UInt8} (h : b ∈ numberBytes) :
    b.toNat ≠ 0 ∧ b < 0x80 := by
  have hall : ∀ b ∈ numberBytes, b.toNat ≠ 0 ∧ b < 0x80 := by decide +kernel
  exact hall b h

theorem IsNumber.mem_numberBytes {s : Text} {n : Int} (hs : IsNumber s n) :
    ∀ b ∈ s, b ∈ numberBytes := by
  have hmagnitude : ∀ b ∈ magnitudeBytes, b ∈ numberBytes := fun _ hb =>
    List.mem_cons_of_mem _ (List.mem_cons_of_mem _ hb)
  cases hs with
  | unsigned hs => exact hs.forall_mem hmagnitude
  | plus hs => exact List.forall_mem_cons.mpr ⟨by decide, hs.forall_mem hmagnitude⟩
  | minus hs => exact List.forall_mem_cons.mpr ⟨by decide, hs.forall_mem hmagnitude⟩

section Bytes

theorem digit?_lowerByte (b : UInt8) : digit? (lowerByte b) = digit? b :=
  forall_byte (P := fun b => digit? (lowerByte b) = digit? b) (by decide +kernel) b

theorem digitIn?_lowerByte (base : Nat) (b : UInt8) :
    digitIn? base (lowerByte b) = digitIn? base b := by
  rw [digitIn?, digit?_lowerByte, digitIn?]

theorem natural?_map_lowerByte (base : Nat) (s : Text) :
    natural? base (s.map lowerByte) = natural? base s := by
  simp only [natural?, List.isEmpty_map, List.foldlM_map, digitIn?_lowerByte]

theorem lowerByte_eq_x_iff {b : UInt8} :
    lowerByte b = 'x'.toUInt8 ↔ b = 'x'.toUInt8 ∨ b = 'X'.toUInt8 :=
  forall_byte (P := fun b => lowerByte b = 'x'.toUInt8 ↔ b = 'x'.toUInt8 ∨ b = 'X'.toUInt8)
    (by decide +kernel) b

theorem lowerByte_ne_X (b : UInt8) : lowerByte b ≠ 'X'.toUInt8 :=
  forall_byte (P := fun b => lowerByte b ≠ 'X'.toUInt8) (by decide +kernel) b

theorem sign_map_lowerByte (s : Text) :
    sign (s.map lowerByte) = ((sign s).1, (sign s).2.map lowerByte) := by
  cases s with
  | nil => rfl
  | cons b s =>
    simp only [sign, List.map_cons, beq_iff_eq, lowerByte_eq_iff (c := '-'.toUInt8) (by decide),
      lowerByte_eq_iff (c := '+'.toUInt8) (by decide)]
    split_ifs <;> rfl

theorem radix_map_lowerByte (s : Text) :
    radix (s.map lowerByte) = ((radix s).1, (radix s).2.map lowerByte) := by
  have hkept : lowerByte '0'.toUInt8 = '0'.toUInt8 := by decide
  rcases s with _ | ⟨b, rest⟩
  · rfl
  · by_cases hzero : b = '0'.toUInt8
    · subst hzero
      rcases rest with _ | ⟨c, rest⟩
      · rfl
      · by_cases hx : c = 'x'.toUInt8 ∨ c = 'X'.toUInt8
        · rcases hx with rfl | rfl <;> rfl
        · have hlower : lowerByte c ≠ 'x'.toUInt8 := fun h => hx (lowerByte_eq_x_iff.mp h)
          obtain ⟨hx, hX⟩ := not_or.mp hx
          rw [List.map_cons, List.map_cons, hkept, radix_octal hx hX,
            radix_octal hlower (lowerByte_ne_X c), List.map_cons]
    · by_cases hsharp : b = '#'.toUInt8
      · subst hsharp
        rfl
      · rw [radix_decimal hzero hsharp, List.map_cons, radix_decimal]
        · rwa [Ne, lowerByte_eq_iff (by decide)]
        · rwa [Ne, lowerByte_eq_iff (by decide)]

theorem number?_map_lowerByte (s : Text) : number? (s.map lowerByte) = number? s := by
  simp only [number?, sign_map_lowerByte, radix_map_lowerByte, natural?_map_lowerByte]

end Bytes

/-- No character but a byte of numbers becomes one in lower case. -/
theorem exists_of_lower_eq_ofByte {g : Glyph} {b : UInt8} (hb : b ∈ numberBytes)
    (h : g.lower = .ofByte b) : ∃ c ∈ numberBytes, lowerByte c = b ∧ g = .ofByte c := by
  have hn : (Char.ofUInt8 b).toNat = b.toNat := rfl
  cases g with
  | stray x =>
    have hc : replacementChar = Char.ofUInt8 b := Glyph.char.inj h
    have hlt := b.toNat_lt
    rw [← hn, ← hc] at hlt
    exact absurd hlt (by decide)
  | char d =>
    have hd : lowerChar d = Char.ofUInt8 b := Glyph.char.inj h
    by_cases hself : lowerChar d = d
    · have hkept : ∀ b ∈ numberBytes, lowerChar (Char.ofUInt8 b) = Char.ofUInt8 b →
          lowerByte b = b := by decide +kernel
      rw [hself] at hd
      subst hd
      exact ⟨b, hb, hkept b hb hself, rfl⟩
    · have hcapital : ∀ r ∈ CapitalRun.all, ∀ b ∈ numberBytes, r.shift ≤ b.toNat →
          r.contains ((b.toNat : Int) - r.shift).toNat = true → ∃ c ∈ numberBytes,
            lowerByte c = b ∧ c.toNat = ((b.toNat : Int) - r.shift).toNat := by decide +kernel
      obtain ⟨r, hr, hcontains, hshift, hback⟩ := exists_run_of_lowerChar_ne hself (by
        rw [hd]
        exact (range_of_mem_numberBytes hb).1)
      rw [hd, hn] at hshift hback
      obtain ⟨c, hc, hlower, hcn⟩ := hcapital r hr b hb hshift (by rwa [hback])
      refine ⟨c, hc, hlower, congrArg Glyph.char (Char.toNat_inj.mp ?_)⟩
      rw [← hback, ← hcn]
      rfl

theorem ascii_of_lower {s : Text} (h : ∀ b ∈ s.lower, b ∈ numberBytes) : ∀ b ∈ s, b < 0x80 := by
  have hglyphs : ∀ g ∈ s.glyphs, ∃ c < 0x80, g = .ofByte c := by
    intro g hg
    have hmem : g.lower ∈ s.lower.glyphs := by
      rw [glyphs_lower]
      exact List.mem_map_of_mem hg
    rw [glyphs_of_ascii fun b hb => (range_of_mem_numberBytes (h b hb)).2] at hmem
    obtain ⟨b, hb, hlower⟩ := List.mem_map.mp hmem
    obtain ⟨c, hc, -, rfl⟩ := exists_of_lower_eq_ofByte (h b hb) hlower.symm
    exact ⟨c, (range_of_mem_numberBytes hc).2, rfl⟩
  intro b hb
  rw [← ofGlyphs_glyphs s] at hb
  obtain ⟨g, hg, hbytes⟩ := List.mem_flatMap.mp hb
  obtain ⟨c, hc, rfl⟩ := hglyphs g hg
  rw [Glyph.bytes_ofByte hc, List.mem_singleton] at hbytes
  exact hbytes ▸ hc

theorem isNumber_lower_iff {s : Text} {n : Int} : IsNumber s.lower n ↔ IsNumber s n := by
  have hascii : (∀ b ∈ s, b < 0x80) → (IsNumber s.lower n ↔ IsNumber s n) := by
    intro h
    rw [← number?_eq_some_iff, ← number?_eq_some_iff, lower_of_ascii h, number?_map_lowerByte]
  constructor
  · intro h
    exact (hascii (ascii_of_lower h.mem_numberBytes)).mp h
  · intro h
    exact (hascii fun b hb => (range_of_mem_numberBytes (h.mem_numberBytes b hb)).2).mpr h

theorem short_lower_eq_ok_iff {s : Text} {n : Int} : short s.lower = .ok n ↔ short s = .ok n := by
  rw [short_eq_ok_iff, short_eq_ok_iff, isNumber_lower_iff]

end Literal

end B100
