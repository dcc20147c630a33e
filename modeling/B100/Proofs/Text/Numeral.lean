import B100.Encoding.Operand
import B100.Proofs.Text.Ascii

/-! # Numerals

Decimal numerals are read back as the number they spell, wherever a number is read: as a short, as
an index and as a register. They are visible words that lower case leaves alone.
-/

namespace B100

namespace Text

def digit (d : Nat) : UInt8 := UInt8.ofNat ('0'.toNat + d)

theorem ofNat_eq (n : Nat) :
    ofNat n = (if n < 10 then [] else ofNat (n / 10)) ++ [digit (n % 10)] := by
  have hdigit : ∀ d < 10, d.digitChar.toUInt8 = digit d := by decide
  split
  · next h => simp [ofNat, Nat.toDigits_of_lt_base h, hdigit n h, Nat.mod_eq_of_lt h]
  · next h =>
    simp [ofNat, Nat.toDigits_of_base_le (b := 10) (n := n) (by omega) (by omega),
      hdigit (n % 10) (by omega)]

theorem ofNat_ne_nil (n : Nat) : ofNat n ≠ [] := by
  rw [ofNat_eq]
  simp

theorem length_ofNat_le_two {n : Nat} (h : n < 100) : (ofNat n).length ≤ 2 := by
  rw [ofNat, List.length_map]
  exact (Nat.length_toDigits_le_iff (by omega) (by omega)).mpr h

theorem forall_mem_ofNat {P : UInt8 → Prop} (h : ∀ d < 10, P (digit d)) (n : Nat) :
    ∀ b ∈ ofNat n, P b := by
  induction n using Nat.strongRecOn with
  | ind n ih =>
    intro b hb
    rw [ofNat_eq, List.mem_append, List.mem_singleton] at hb
    rcases hb with hb | rfl
    · split at hb
      · cases hb
      · exact ih (n / 10) (by omega) b hb
    · exact h _ (Nat.mod_lt n (by decide))

theorem visible_ofNat (n : Nat) : (ofNat n).Visible :=
  ⟨ofNat_ne_nil n, forall_mem_ofNat (by decide) n⟩

theorem head?_ofNat_ne_zero {n : Nat} (h : n ≠ 0) : (ofNat n).head? ≠ some '0'.toUInt8 := by
  have hdigit : ∀ d < 10, d ≠ 0 → digit d ≠ '0'.toUInt8 := by decide
  induction n using Nat.strongRecOn with
  | ind n ih =>
    rw [ofNat_eq]
    split
    · next hlt => simpa [Nat.mod_eq_of_lt hlt] using hdigit n hlt h
    · next hle =>
      obtain ⟨b, t, hb⟩ := List.exists_cons_of_ne_nil (ofNat_ne_nil (n / 10))
      have hn := ih (n / 10) (by omega) (by omega)
      rw [hb] at hn ⊢
      exact hn

theorem lower_eq_self {s : Text} (hascii : ∀ b ∈ s, b < 0x80)
    (h : ∀ b ∈ s, (Glyph.ofByte b).lower = Glyph.ofByte b) : s.lower = s := by
  rw [lower, glyphs_of_ascii hascii, List.map_map, List.map_congr_left (by simpa using h),
    ofGlyphs_map_ofByte hascii]

@[simp] theorem lower_ofNat (n : Nat) : (ofNat n).lower = ofNat n :=
  lower_eq_self (visible_ofNat n).ascii (forall_mem_ofNat (by decide) n)

theorem ofInt_natCast (n : Nat) : ofInt n = ofNat n := by
  simp [ofInt]

theorem ofInt_of_neg {n : Int} (h : n < 0) : ofInt n = '-'.toUInt8 :: ofNat n.natAbs := if_pos h

theorem forall_mem_ofInt {P : UInt8 → Prop} (h : ∀ d < 10, P (digit d)) (hminus : P '-'.toUInt8)
    (n : Int) : ∀ b ∈ ofInt n, P b := by
  rcases Int.lt_or_le n 0 with hn | hn
  · rw [ofInt_of_neg hn]
    exact List.forall_mem_cons.mpr ⟨hminus, forall_mem_ofNat h _⟩
  · lift n to Nat using hn
    rw [ofInt_natCast]
    exact forall_mem_ofNat h n

theorem visible_ofInt (n : Int) : (ofInt n).Visible := by
  refine ⟨?_, forall_mem_ofInt (by decide) (by decide) n⟩
  unfold ofInt
  split
  · exact List.cons_ne_nil _ _
  · exact ofNat_ne_nil _

@[simp] theorem lower_ofInt (n : Int) : (ofInt n).lower = ofInt n :=
  lower_eq_self (visible_ofInt n).ascii (forall_mem_ofInt (by decide) (by decide) n)

end Text

open Text

namespace Literal

@[simp] theorem natural?_ofNat (n : Nat) : natural? 10 (ofNat n) = some n := by
  have hdigit : ∀ d < 10, digitIn? 10 (digit d) = some d := by decide
  rw [natural?, if_neg (by simp [ofNat_ne_nil])]
  induction n using Nat.strongRecOn with
  | ind n ih =>
    have hmod : n % 10 < 10 := Nat.mod_lt n (by decide)
    rw [ofNat_eq]
    split
    · next hlt => simp [Nat.mod_eq_of_lt hlt, hdigit n hlt]
    · next hle =>
      rw [List.foldlM_append, ih (n / 10) (by omega)]
      simp only [List.foldlM_cons, List.foldlM_nil, hdigit _ hmod, Option.map_some,
        Option.bind_eq_bind, Option.bind_some, Option.pure_def, Nat.div_add_mod']

@[simp] theorem sign_ofNat (n : Nat) : sign (ofNat n) = (false, ofNat n) := by
  have hm : ∀ b ∈ ofNat n, b ≠ '-'.toUInt8 ∧ b ≠ '+'.toUInt8 := forall_mem_ofNat (by decide) n
  unfold sign
  split
  · next h => rw [h]
  · next b rest h =>
    obtain ⟨hminus, hplus⟩ := hm b (by simp [h])
    rw [if_neg (by simpa using hminus), if_neg (by simpa using hplus), h]

theorem after?_ofNat (beginning : Text) {b : UInt8} (hb : b ∈ beginning)
    (hd : ∀ d < 10, digit d ≠ b) (n : Nat) : (ofNat n).after? beginning = none :=
  after?_eq_none hb fun h => forall_mem_ofNat (P := (· ≠ b)) hd n b h rfl

@[simp] theorem radix_ofNat (n : Nat) : radix (ofNat n) = (10, ofNat n) := by
  have hx := after?_ofNat "0x" (b := 'x'.toUInt8) (by decide) (by decide) n
  have hX := after?_ofNat "0X" (b := 'X'.toUInt8) (by decide) (by decide) n
  have hh := after?_ofNat "#" (b := '#'.toUInt8) (by decide) (by decide) n
  simp only [radix, hx, hX, hh]
  split
  · cases ‹_›
  · cases ‹_›
  · cases ‹_›
  · next b c rest _ _ _ h =>
    have hn : n ≠ 0 := by
      rintro rfl
      cases h
    have hb := head?_ofNat_ne_zero hn
    rw [h, List.head?_cons] at hb
    rw [if_neg fun he => hb (congrArg some (by simpa using he))]
  · rfl

theorem short_ofNat {n : Nat} (h : n ≤ 0x7FFF) : short (ofNat n) = .ok n := by
  have hs : isShort (signed false n) = true := by
    simp [isShort, signed]
    omega
  simp only [short, sign_ofNat, radix_ofNat, natural?_ofNat, hs]
  rw [if_neg (by omega)]
  rfl

theorem index_ofNat {n : Nat} (h : n ≤ 0x7FFF) : index (ofNat n) = .ok n := by
  have hx := after?_ofNat "0x" (b := 'x'.toUInt8) (by decide) (by decide) n
  have hs : isShort (signed false n) = true := by
    simp [isShort, signed]
    omega
  simp only [index, hx, sign_ofNat, natural?_ofNat, hs]
  rfl

theorem isShort_signed_natAbs {n : Int} (hn : n < 0) (h : -0x8000 ≤ n) :
    signed true n.natAbs = n ∧ isShort n = true := by
  simp only [signed, isShort, if_true, Bool.and_eq_true, decide_eq_true_eq]
  omega

theorem short_ofInt {n : Int} (h₀ : -0x8000 ≤ n) (h₁ : n ≤ 0x7FFF) : short (ofInt n) = .ok n := by
  rcases Int.lt_or_le n 0 with hn | hn
  · have hsign : sign ('-'.toUInt8 :: ofNat n.natAbs) = (true, ofNat n.natAbs) := rfl
    obtain ⟨hsigned, hshort⟩ := isShort_signed_natAbs hn h₀
    rw [ofInt_of_neg hn]
    simp only [short, hsign, radix_ofNat, natural?_ofNat, hsigned, hshort]
    rw [if_neg (by omega), if_pos trivial]
  · lift n to Nat using hn
    rw [ofInt_natCast]
    exact short_ofNat (by omega)

theorem index_ofInt {n : Int} (h₀ : -0x8000 ≤ n) (h₁ : n ≤ 0x7FFF) : index (ofInt n) = .ok n := by
  rcases Int.lt_or_le n 0 with hn | hn
  · have hsign : sign ('-'.toUInt8 :: ofNat n.natAbs) = (true, ofNat n.natAbs) := rfl
    have hx : after? ('-'.toUInt8 :: ofNat n.natAbs) "0x" = none := rfl
    obtain ⟨hsigned, hshort⟩ := isShort_signed_natAbs hn h₀
    rw [ofInt_of_neg hn]
    simp only [index, hx, hsign, natural?_ofNat, hsigned, hshort, if_true]
  · lift n to Nat using hn
    rw [ofInt_natCast]
    exact index_ofNat (by omega)

end Literal

namespace Operand

theorem isOneOrTwoDigits_ofNat {n : Nat} (h : n < 100) : isOneOrTwoDigits (ofNat n) = true := by
  have hpos := List.length_pos_iff.mpr (ofNat_ne_nil n)
  have hlen := length_ofNat_le_two h
  simp only [isOneOrTwoDigits, Bool.and_eq_true, decide_eq_true_eq, List.all_eq_true]
  exact ⟨⟨hpos, hlen⟩, forall_mem_ofNat (by decide) n⟩

theorem stripSpacing_ofNat (n : Nat) : stripSpacing (ofNat n) = ofNat n := by
  have hs : ∀ s : Text, (∀ b ∈ s, isSpacing b = false) → s.dropWhile isSpacing = s := by
    intro s h
    cases s with
    | nil => rfl
    | cons b s => exact List.dropWhile_cons_of_neg (by simp [h b])
  have hm : ∀ b ∈ ofNat n, isSpacing b = false := forall_mem_ofNat (by decide) n
  rw [stripSpacing, hs _ hm, hs _ (by simpa using hm), List.reverse_reverse]

theorem register?_ofNat {n : Nat} (h : n < 100) : register? (ofNat n) = some n := by
  simp [register?, stripSpacing_ofNat, isOneOrTwoDigits_ofNat h]

theorem short_ofNat {n : Nat} (h : n ≤ 0x7FFF) : short (ofNat n) = pure (n : Int) := by
  rw [short, Literal.short_ofNat h]

theorem index_ofNat {n : Nat} (h : n ≤ 0x7FFF) : index (ofNat n) = pure (n : Int) := by
  rw [index, Literal.index_ofNat h]

end Operand

end B100
