import B100.Proofs.Text.LowerCase

/-! # Letter case

Texts may differ in the case of ASCII letters only. Such texts have the same lower case, whatever
other characters or stray bytes stand between the letters.
-/

namespace B100.Text

/-- The texts differ at most in the case of ASCII letters. -/
def SameLetters (s t : Text) : Prop := s.map lowerByte = t.map lowerByte

instance (s t : Text) : Decidable (SameLetters s t) := inferInstanceAs (Decidable (_ = _))

theorem lower_map_lowerByte (s : Text) : lower (s.map lowerByte) = s.lower := by
  induction hn : s.length using Nat.strong_induction_on generalizing s with
  | _ n ih =>
    by_cases h : ∃ b ∈ s, b < 0x80
    · obtain ⟨b, hmem, hb⟩ := h
      -- An ASCII byte parts the glyphs before it from those after it.
      obtain ⟨t, u, rfl⟩ := List.append_of_mem hmem
      rw [List.length_append, List.length_cons] at hn
      have ht := ih t.length (by omega) t rfl
      have hu := ih u.length (by omega) u rfl
      rw [List.map_append, List.map_cons, lower_append_ascii_cons (lowerByte_lt hb),
        lower_append_ascii_cons hb, lowerByte_lowerByte, ht, hu]
    · have hkept : ∀ b ∈ s, lowerByte b = id b := fun b hb =>
        lowerByte_of_le (UInt8.not_lt.mp fun hlt => h ⟨b, hb, hlt⟩)
      rw [List.map_congr_left hkept, List.map_id]

variable {s t : Text}

theorem unbroken_lower_iff : s.lower.Unbroken ↔ s.Unbroken := by
  simp only [Unbroken, glyphs_lower, List.forall_mem_map, Glyph.isBlank_lower]

namespace SameLetters

theorem lower_eq (h : SameLetters s t) : s.lower = t.lower := by
  rw [← lower_map_lowerByte s, h, lower_map_lowerByte]

theorem unbroken (h : SameLetters s t) (hs : s.Unbroken) : t.Unbroken := by
  rw [← unbroken_lower_iff, ← h.lower_eq, unbroken_lower_iff]
  exact hs

theorem notMem (h : SameLetters s t) {b : UInt8} (hb : b < 'A'.toUInt8) (hs : b ∉ s) : b ∉ t := by
  have hmem : ∀ {u : Text}, b ∈ u.map lowerByte ↔ b ∈ u := by
    intro u
    simp only [List.mem_map, lowerByte_eq_iff hb, exists_eq_right]
  rw [← hmem, ← h, hmem]
  exact hs

end SameLetters

end B100.Text
