import B100.Word
import Mathlib.Algebra.Group.Nat.Defs

/-! # Fields of words

A word is packed with `|||` from parts that do not overlap. Masks and shifts go through `|||`, so a
field is read back by reading it from every part: a part lies within its own mask, and is kept whole
by a larger mask and removed by a disjoint one.
-/

namespace B100.Word

theorem toNat_ofInt {n : Int} (h₀ : 0 ≤ n) (h : n < 0x10000) : ((ofInt n).toNat : Int) = n := by
  have hm : n % 2 ^ 16 = n := Int.emod_eq_of_lt h₀ h
  unfold ofInt UInt16.ofInt
  rw [hm, UInt16.toNat_ofNat', Nat.mod_eq_of_lt (by omega)]
  omega

theorem toNat_or_of_lt {w : Word} (h : w.toNat < 0x8000) :
    (0x8000 ||| w).toNat = 0x8000 + w.toNat := by
  have hp := Nat.two_pow_add_eq_or_of_lt (i := 15) h 1
  simpa using hp.symm

protected theorem or_and (x y m : Word) : (x ||| y) &&& m = (x &&& m) ||| (y &&& m) := by
  simp [← UInt16.toBitVec_inj, BitVec.and_or_distrib_right]

protected theorem and_shiftRight (x y n : Word) : (x &&& y) >>> n = (x >>> n) &&& (y >>> n) := by
  simp [← UInt16.toBitVec_inj, BitVec.ushiftRight_and_distrib]

protected theorem and_shiftLeft (x y n : Word) : (x &&& y) <<< n = (x <<< n) &&& (y <<< n) := by
  simp [← UInt16.toBitVec_inj, BitVec.shiftLeft_and_distrib]

def Within (w m : Word) : Prop := w &&& m = w

instance (w m : Word) : Decidable (w.Within m) := inferInstanceAs (Decidable (_ = _))

variable {x y w m k : Word}

theorem Within.and_eq_self (h : w.Within m) (hm : m &&& k = m) : w &&& k = w := by
  rw [← h, UInt16.and_assoc, hm]

theorem Within.and_eq_zero (h : w.Within m) (hm : m &&& k = 0) : w &&& k = 0 := by
  rw [← h, UInt16.and_assoc, hm, UInt16.and_zero]

theorem Within.mono (h : w.Within m) (hm : m &&& k = m) : w.Within k := h.and_eq_self hm

theorem Within.or (hx : x.Within m) (hy : y.Within m) : (x ||| y).Within m := by
  rw [Within, Word.or_and, hx, hy]

theorem Within.shiftLeft (h : w.Within m) (n : Word) : (w <<< n).Within (m <<< n) := by
  rw [Within, ← Word.and_shiftLeft, h]

theorem within_of_toNat_lt {n : Nat} (h : w.toNat < 2 ^ n) (hn : n ≤ 16) :
    w.Within (UInt16.ofNat (2 ^ n - 1)) := by
  have hp : 2 ^ n ≤ 2 ^ 16 := Nat.pow_le_pow_right (by omega) hn
  apply UInt16.toNat_inj.mp
  rw [UInt16.toNat_and, UInt16.toNat_ofNat', Nat.mod_eq_of_lt (by omega),
    Nat.and_two_pow_sub_one_of_lt_two_pow h]

theorem within_ofInt {n : Int} {b : Nat} (h₀ : 0 ≤ n) (h : n < (2 ^ b : Nat)) (hb : b ≤ 16) :
    (ofInt n).Within (UInt16.ofNat (2 ^ b - 1)) := by
  have hp : 2 ^ b ≤ 2 ^ 16 := Nat.pow_le_pow_right (by omega) hb
  have hn := toNat_ofInt h₀ (by omega)
  exact within_of_toNat_lt (by omega) hb

theorem bitVec_shiftLeft_shiftRight {b : Nat} (x : BitVec b) (n : Nat) :
    x <<< n >>> n = x &&& (BitVec.allOnes b >>> n) := by
  ext i hi
  by_cases h : n + i < b <;> simp [h]

theorem Within.shiftLeft_shiftRight {n : Word} (h : w.Within m) (hm : (m <<< n) >>> n = m) :
    (w <<< n) >>> n = w := by
  have hs : ∀ x : Word, (x <<< n) >>> n = x &&& ⟨BitVec.allOnes 16 >>> (n.toNat % 16)⟩ := by
    intro x
    apply UInt16.toBitVec_inj.mp
    simpa using bitVec_shiftLeft_shiftRight x.toBitVec (n.toNat % 16)
  rw [hs] at hm ⊢
  exact h.and_eq_self hm

theorem Within.shiftRight_and {n : Word} (h : x.Within m) (hm : (m <<< n) >>> n = m)
    (hw : w &&& (m <<< n) = x <<< n) : (w >>> n) &&& m = x :=
  calc (w >>> n) &&& m
    _ = (w &&& (m <<< n)) >>> n := by rw [Word.and_shiftRight, hm]
    _ = (x <<< n) >>> n := by rw [hw]
    _ = x := h.shiftLeft_shiftRight hm

end B100.Word
