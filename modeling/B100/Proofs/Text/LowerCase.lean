import B100.Proofs.Text.Trimming
import B100.Settings.Layer

/-! # Lower case

No small letter is itself a capital of another, so a text in lower case stays as it is, and settings
find a key whether or not it was put in lower case before.
-/

namespace B100

namespace CapitalRun

def small (r : CapitalRun) (k : Nat) : Nat := ((r.first + r.step * k : Nat) + r.shift : Int).toNat

def places (r : CapitalRun) : Nat := (r.last - r.first) / r.step

theorem exists_place {r : CapitalRun} {n : Nat} (h : r.contains n = true) :
    ∃ k ≤ r.places, n = r.first + r.step * k := by
  simp only [contains, Bool.and_eq_true, decide_eq_true_eq, beq_iff_eq] at h
  obtain ⟨⟨hfirst, hlast⟩, hmod⟩ := h
  have hdiv := Nat.div_add_mod (n - r.first) r.step
  exact ⟨(n - r.first) / r.step, Nat.div_le_div_right (by omega), by omega⟩

def isApart (q : CapitalRun) (low high : Nat) : Bool := high.blt q.first || q.last.blt low

/-- Are the small letters of one run no capitals of another? Only runs that overlap are gone
through letter by letter. -/
def avoids (r q : CapitalRun) : Bool :=
  q.isApart (r.small 0) (r.small r.places) ||
    (List.range (r.places + 1)).all fun k => !q.contains (r.small k)

theorem not_contains_of_avoids {r q : CapitalRun} (h : r.avoids q = true) {k : Nat}
    (hk : k ≤ r.places) : q.contains (r.small k) = false := by
  rcases Bool.or_eq_true_iff.mp h with hapart | hall
  · have hmul := Nat.mul_le_mul_left r.step hk
    have hlow : r.small 0 ≤ r.small k := by
      unfold small
      omega
    have hhigh : r.small k ≤ r.small r.places := by
      unfold small
      omega
    simp only [isApart, Bool.or_eq_true, Nat.blt_eq] at hapart
    simp only [contains, Bool.and_eq_false_iff, decide_eq_false_iff_not]
    omega
  · simpa using List.all_eq_true.mp hall k (List.mem_range.mpr (by omega))

theorem all_avoids : (all.all fun r => all.all r.avoids) = true := by
  decide +kernel

/-- No run has the small letter of a capital. -/
theorem find?_contains_small {r : CapitalRun} (hr : r ∈ all) {n : Nat} (h : r.contains n = true) :
    all.find? (·.contains (n + r.shift : Int).toNat) = none := by
  obtain ⟨k, hk, rfl⟩ := exists_place h
  rw [List.find?_eq_none]
  intro q hq
  have havoids := List.all_eq_true.mp (List.all_eq_true.mp all_avoids r hr) q hq
  exact Bool.eq_false_iff.mp (not_contains_of_avoids havoids hk)

end CapitalRun

def isSmall (n : Nat) : Bool :=
  CapitalRun.all.any fun r => r.shift ≤ n && r.contains ((n : Int) - r.shift).toNat

theorem toNat_ofNat_eq_or (n : Nat) : (Char.ofNat n).toNat = n ∨ (Char.ofNat n).toNat = 0 := by
  by_cases h : n.isValidChar
  · exact .inl (by rw [Char.ofNat, dif_pos h]; rfl)
  · exact .inr (by rw [Char.ofNat, dif_neg h]; rfl)

theorem lowerChar_of_find?_eq_none {c : Char}
    (h : CapitalRun.all.find? (·.contains c.toNat) = none) : lowerChar c = c := by
  rw [lowerChar, h]

theorem lowerChar_lowerChar (c : Char) : lowerChar (lowerChar c) = lowerChar c := by
  cases h : CapitalRun.all.find? (·.contains c.toNat) with
  | none => rw [lowerChar_of_find?_eq_none h, lowerChar_of_find?_eq_none h]
  | some r =>
    have hlower : lowerChar c = Char.ofNat (c.toNat + r.shift).toNat := by
      rw [lowerChar, h]
    have hcontains : r.contains c.toNat = true := by
      simpa using List.find?_some h
    rw [hlower]
    apply lowerChar_of_find?_eq_none
    -- A number that is no character at all stands for the null character, which is no capital.
    rcases toNat_ofNat_eq_or (c.toNat + r.shift).toNat with hn | hn
    · rw [hn]
      exact CapitalRun.find?_contains_small (List.mem_of_find?_eq_some h) hcontains
    · rw [hn]
      decide

/-- A character that lower case changes is a capital, and its run leads back from the small letter.
-/
theorem exists_run_of_lowerChar_ne {c : Char} (h : lowerChar c ≠ c)
    (hzero : (lowerChar c).toNat ≠ 0) : ∃ r ∈ CapitalRun.all, r.contains c.toNat = true ∧
      r.shift ≤ (lowerChar c).toNat ∧ (((lowerChar c).toNat : Int) - r.shift).toNat = c.toNat := by
  cases hr : CapitalRun.all.find? (·.contains c.toNat) with
  | none => exact absurd (lowerChar_of_find?_eq_none hr) h
  | some r =>
    have hlower : lowerChar c = Char.ofNat (c.toNat + r.shift).toNat := by
      rw [lowerChar, hr]
    have hcontains : r.contains c.toNat = true := by
      simpa using List.find?_some hr
    have hn : (lowerChar c).toNat = (c.toNat + r.shift).toNat := by
      rw [hlower] at hzero ⊢
      exact (toNat_ofNat_eq_or _).resolve_right hzero
    exact ⟨r, List.mem_of_find?_eq_some hr, hcontains, by omega, by omega⟩

theorem lowerChar_eq_self {c : Char} (h : isSmall (lowerChar c).toNat = false)
    (hzero : (lowerChar c).toNat ≠ 0) : lowerChar c = c := by
  by_contra hne
  obtain ⟨r, hr, hcontains, hshift, hback⟩ := exists_run_of_lowerChar_ne hne hzero
  have hsmall : isSmall (lowerChar c).toNat = true := by
    refine List.any_eq_true.mpr ⟨r, hr, ?_⟩
    rw [hback, hcontains, decide_eq_true hshift, Bool.and_self]
  cases h.symm.trans hsmall

theorem Glyph.exists_lower_eq_char (g : Glyph) : ∃ c, g.lower = .char c := by
  cases g with
  | char c => exact ⟨lowerChar c, rfl⟩
  | stray b => exact ⟨replacementChar, rfl⟩

theorem Glyph.lower_lower (g : Glyph) : g.lower.lower = g.lower := by
  cases g with
  | char c => exact congrArg Glyph.char (lowerChar_lowerChar c)
  | stray b =>
    have hr : lowerChar replacementChar = replacementChar := by decide
    exact congrArg Glyph.char hr

theorem Glyph.eq_of_lower_eq_ofByte {b : UInt8} (hsmall : isSmall b.toNat = false)
    (hzero : b ≠ 0) {g : Glyph} (h : g.lower = ofByte b) : g = ofByte b := by
  have hn : (Char.ofUInt8 b).toNat = b.toNat := rfl
  cases g with
  | char c =>
    have hc : lowerChar c = Char.ofUInt8 b := Glyph.char.inj h
    have hself := lowerChar_eq_self (c := c) (by rw [hc, hn, hsmall]) (by
      rw [hc, hn]
      exact fun h0 => hzero (UInt8.toNat_inj.mp h0))
    rw [ofByte, ← hc, hself]
  | stray x =>
    have hc : replacementChar = Char.ofUInt8 b := Glyph.char.inj h
    have hlt := b.toNat_lt
    rw [← hn, ← hc] at hlt
    exact absurd hlt (by decide)

@[simp] theorem Glyph.isBlank_lower (g : Glyph) : g.lower.isBlank = g.isBlank := by
  cases g with
  | char c =>
    have hsmall : ∀ d : Char, isBlankChar d = true → isSmall d.toNat = false ∧ d.toNat ≠ 0 :=
      fun d => forall_blank (P := fun d => isSmall d.toNat = false ∧ d.toNat ≠ 0)
        (by decide +kernel)
    have hkept : ∀ d : Char, isBlankChar d = true → lowerChar d = d :=
      fun d => forall_blank (P := fun d => lowerChar d = d) (by decide +kernel)
    change isBlankChar (lowerChar c) = isBlankChar c
    cases hc : isBlankChar (lowerChar c) with
    | true =>
      rw [← hc, lowerChar_eq_self (hsmall _ hc).1 (hsmall _ hc).2]
    | false =>
      cases hb : isBlankChar c with
      | false => rfl
      | true =>
        rw [hkept c hb, hb] at hc
        cases hc
  | stray b => rfl

namespace Text

theorem glyphs_lower (s : Text) : s.lower.glyphs = s.glyphs.map Glyph.lower := by
  apply glyphs_ofGlyphs
  intro g hg
  obtain ⟨h, -, rfl⟩ := List.mem_map.mp hg
  exact h.exists_lower_eq_char

theorem lower_lower (s : Text) : s.lower.lower = s.lower := by
  have hg : Glyph.lower ∘ Glyph.lower = Glyph.lower := funext Glyph.lower_lower
  rw [lower, glyphs_lower, List.map_map, hg, ← lower]

theorem lower_append_ascii {s : Text} (h : ∀ b ∈ s, b < 0x80) (t : Text) :
    (s ++ t).lower = s.lower ++ t.lower := by
  rw [lower, glyphs_ascii_append h, List.map_append, ofGlyphs_append, ← lower, ← lower]

def lowerByte (b : UInt8) : UInt8 :=
  if 'A'.toUInt8 ≤ b && b ≤ 'Z'.toUInt8 then b + 0x20 else b

theorem toNat_lowerByte (b : UInt8) :
    (lowerByte b).toNat = if 65 ≤ b.toNat ∧ b.toNat ≤ 90 then b.toNat + 32 else b.toNat :=
  forall_byte (P := fun b => (lowerByte b).toNat =
    if 65 ≤ b.toNat ∧ b.toNat ≤ 90 then b.toNat + 32 else b.toNat) (by decide +kernel) b

theorem lowerByte_lt {b : UInt8} (h : b < 0x80) : lowerByte b < 0x80 := by
  have hb : b.toNat < 128 := UInt8.lt_iff_toNat_lt.mp h
  refine UInt8.lt_iff_toNat_lt.mpr (?_ : _ < 128)
  rw [toNat_lowerByte]
  split_ifs <;> omega

theorem lowerByte_of_le {b : UInt8} (h : 0x80 ≤ b) : lowerByte b = b := by
  have hb : 128 ≤ b.toNat := UInt8.le_iff_toNat_le.mp h
  rw [← UInt8.toNat_inj, toNat_lowerByte, if_neg (by omega)]

theorem lowerByte_lowerByte (b : UInt8) : lowerByte (lowerByte b) = lowerByte b := by
  rw [← UInt8.toNat_inj, toNat_lowerByte, toNat_lowerByte]
  split_ifs <;> omega

theorem lowerByte_eq_iff {b c : UInt8} (hc : c < 'A'.toUInt8) : lowerByte b = c ↔ b = c := by
  have hlt : c.toNat < 65 := UInt8.lt_iff_toNat_lt.mp hc
  rw [← UInt8.toNat_inj, ← UInt8.toNat_inj, toNat_lowerByte]
  split_ifs <;> omega

theorem bytes_lower_ofByte {b : UInt8} (hb : b < 0x80) :
    (Glyph.ofByte b).lower.bytes = [lowerByte b] :=
  forall_ascii (P := fun b => (Glyph.ofByte b).lower.bytes = [lowerByte b]) (by decide +kernel) hb

theorem lower_of_ascii {s : Text} (h : ∀ b ∈ s, b < 0x80) : s.lower = s.map lowerByte := by
  rw [lower, glyphs_of_ascii h, ofGlyphs, List.map_map, List.flatMap_map]
  induction s with
  | nil => rfl
  | cons b s ih =>
    rw [List.flatMap_cons, Function.comp_apply, bytes_lower_ofByte (h b List.mem_cons_self),
      ih fun c hc => h c (List.mem_cons_of_mem b hc)]
    rfl

theorem lower_append_ascii_cons {b : UInt8} (hb : b < 0x80) (s t : Text) :
    (s ++ b :: t).lower = s.lower ++ lowerByte b :: t.lower := by
  rw [lower, glyphs_append_ascii hb, List.map_append, List.map_cons, ofGlyphs_append, ofGlyphs_cons,
    bytes_lower_ofByte hb]
  rfl

theorem lower_append_cons {b : UInt8} (hb : b < 0x80) (hlower : lowerByte b = b) (s t : Text) :
    (s ++ b :: t).lower = s.lower ++ b :: t.lower := by
  rw [lower_append_ascii_cons hb, hlower]

theorem mem_of_mem_lower {s : Text} {b : UInt8} (hb : b < 0x80) (hsmall : isSmall b.toNat = false)
    (hzero : b ≠ 0) (h : b ∈ s.lower) : b ∈ s := by
  rw [← ofByte_mem_glyphs_iff hb, glyphs_lower] at h
  obtain ⟨g, hg, hlower⟩ := List.mem_map.mp h
  rw [← ofByte_mem_glyphs_iff hb, ← Glyph.eq_of_lower_eq_ofByte hsmall hzero hlower]
  exact hg

theorem lower_ne_nil {s : Text} (h : s ≠ []) : s.lower ≠ [] := by
  intro hlower
  have hg := glyphs_lower s
  rw [hlower] at hg
  exact glyphs_ne_nil h (List.map_eq_nil_iff.mp hg.symm)

theorem trim_lower {s : Text} (h : s.trim = s) : s.lower.trim = s.lower := by
  rw [trim_eq_self_iff] at h ⊢
  simpa [glyphs_lower] using h

end Text

namespace Layer

theorem lookup_lower_table (s : Settings) (key : Text) : s.lookup key.lower = s.lookup key := by
  rw [Settings.lookup, Text.lower_lower, ← Settings.lookup]

mutual

theorem lookup_lower (key : Text) : ∀ l : Layer, l.lookup key.lower = l.lookup key
  | absent => rfl
  | table s => lookup_lower_table s key
  | stack layers => lookupFirst_lower key layers

theorem lookupFirst_lower (key : Text) :
    ∀ layers : List Layer, lookupFirst key.lower layers = lookupFirst key layers
  | [] => rfl
  | l :: ls => by rw [lookupFirst, lookup_lower key l, lookupFirst_lower key ls, ← lookupFirst]

end

end Layer

end B100
