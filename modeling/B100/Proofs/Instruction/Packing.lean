import B100.Proofs.Instruction.Classes
import B100.Proofs.Word.Fields

/-! # Packing instructions

An instruction with its operands as numbers is a tag and a body. In a well-formed instruction set
the tags of two classes never meet and no body reaches into a tag, so the class and the operands of
a packed instruction can be read back from its word.
-/

namespace B100

inductive Instruction where
  | push (value : Int)
  | copy (source destination : Int)
  | jump (code : Word)
  | operation (code : Word)
  | peripheral (number register : Int) (code : Word)
  | system (flag : Word) (index : Int)
  deriving DecidableEq, Repr

namespace Instruction

def toClass : Instruction → Class
  | push _ => .push
  | copy _ _ => .copy
  | jump _ => .jump
  | operation _ => .alu
  | peripheral _ _ _ => .io
  | system _ _ => .sys

def body : Instruction → Word
  | push n => Word.ofInt n
  | copy s d => Word.ofInt s <<< 8 ||| Word.ofInt d <<< 4
  | jump code => code
  | operation code => code
  | peripheral n r code => Word.ofInt n <<< 8 ||| Word.ofInt r <<< 4 ||| code
  | system flag i => flag ||| Word.ofInt i

def ofWord (c : Class) (w : Word) : Instruction :=
  match c with
  | .push => push (w &&& 0x7FFF).toNat
  | .copy => copy ((w >>> 8) &&& 15).toNat ((w >>> 4) &&& 15).toNat
  | .jump => jump (w &&& 0x0FFF)
  | .alu => operation (w &&& 0x0FFF)
  | .io => peripheral ((w >>> 8) &&& 7).toNat ((w >>> 4) &&& 15).toNat (w &&& 0x080F)
  | .sys => system (w &&& 0x0F00) (w &&& 0xFF).toNat

end Instruction

namespace InstructionSet

/-- Tags that can be told apart, and codes that leave the tags and the operands alone. -/
structure WellFormed (isa : InstructionSet) : Prop where
  push : isa.tag? .push = some 0x8000
  tag : ∀ c ≠ .push, ∃ t, isa.tag? c = some t ∧ t < 0x8000 ∧ 0x1000 ∣ t.toNat
  distinct : ∀ c ≠ .push, ∀ d ≠ .push, isa.tag? c = isa.tag? d → c = d
  alu : ∀ (m : Text) (code : Word), isa.alu[m]? = some code → code < 0x1000
  jump : ∀ (m : Text) (code : Word), isa.jump[m]? = some code → code < 0x1000
  io : ∀ (m : Text) (code : Word), isa.io[m]? = some code → code.Within 0x080F
  sysFlag : isa.sysFlag.Within 0x0F00

/-- Operands that fit their fields, and codes of the set. An execution has no register. -/
def Admits (isa : InstructionSet) : Instruction → Prop
  | .push n => 0 ≤ n ∧ n ≤ 0x7FFF
  | .copy s d => (0 ≤ s ∧ s ≤ 15) ∧ 0 ≤ d ∧ d ≤ 15
  | .jump code => ∃ m : Text, isa.jump[m]? = some code
  | .operation code => ∃ m : Text, isa.alu[m]? = some code
  | .peripheral n r code => (0 ≤ n ∧ n ≤ 7) ∧ (0 ≤ r ∧ r ≤ 15) ∧
    ∃ m : Text, isa.io[m]? = some code ∧ (m = "ioex" → r = 0)
  | .system flag i => flag = isa.sysFlag ∧ 0 ≤ i ∧ i ≤ 255

def pack (isa : InstructionSet) (i : Instruction) : Word := isa.tag i.toClass ||| i.body

def decodeAmong? (isa : InstructionSet) (order : List Class) (w : Word) : Option Instruction :=
  (isa.classAmong? order w).map (Instruction.ofWord · w)

variable {isa : InstructionSet} {i : Instruction} {c : Class}

theorem pack_copy (isa : InstructionSet) (s d : Int) :
    isa.pack (.copy s d) = isa.tag .copy ||| Word.ofInt s <<< 8 ||| Word.ofInt d <<< 4 :=
  (UInt16.or_assoc ..).symm

theorem pack_peripheral (isa : InstructionSet) (n r : Int) (code : Word) :
    isa.pack (.peripheral n r code) =
      isa.tag .io ||| Word.ofInt n <<< 8 ||| Word.ofInt r <<< 4 ||| code := by
  rw [pack, Instruction.body, ← UInt16.or_assoc, ← UInt16.or_assoc]
  rfl

theorem pack_execute (isa : InstructionSet) (n : Int) (code : Word) :
    isa.pack (.peripheral n 0 code) = isa.tag .io ||| Word.ofInt n <<< 8 ||| code := by
  have hz : Word.ofInt 0 <<< 4 = 0 := rfl
  rw [pack_peripheral, hz, UInt16.or_zero]

theorem pack_system (isa : InstructionSet) (flag : Word) (n : Int) :
    isa.pack (.system flag n) = isa.tag .sys ||| flag ||| Word.ofInt n :=
  (UInt16.or_assoc ..).symm

theorem WellFormed.tag_push (h : isa.WellFormed) : isa.tag .push = 0x8000 := by
  simp [InstructionSet.tag, h.push]

theorem WellFormed.tag?_eq (h : isa.WellFormed) (hc : c ≠ .push) :
    isa.tag? c = some (isa.tag c) := by
  obtain ⟨t, ht, -⟩ := h.tag c hc
  simp [InstructionSet.tag, ht]

theorem WellFormed.tag_within (h : isa.WellFormed) (hc : c ≠ .push) :
    (isa.tag c).Within 0x7000 := by
  obtain ⟨t, ht, hlt, q, hq⟩ := h.tag c hc
  have hlt : t.toNat < 0x8000 := hlt
  have hmasks : ∀ q < 8, Word.Within (UInt16.ofNat (0x1000 * q)) 0x7000 := by decide
  rw [InstructionSet.tag, ht, Option.getD_some, ← UInt16.ofNat_toNat (x := t), hq]
  exact hmasks q (by omega)

theorem within_of_lt {code : Word} (h : code < 0x1000) : code.Within 0x0FFF :=
  Word.within_of_toNat_lt (n := 12) h (by omega)

theorem within_register {n : Int} (h : 0 ≤ n ∧ n ≤ 15) : (Word.ofInt n).Within 15 :=
  Word.within_ofInt (b := 4) h.1 (by omega) (by omega)

theorem within_peripheral {n : Int} (h : 0 ≤ n ∧ n ≤ 7) : (Word.ofInt n).Within 7 :=
  Word.within_ofInt (b := 3) h.1 (by omega) (by omega)

theorem within_index {n : Int} (h : 0 ≤ n ∧ n ≤ 255) : (Word.ofInt n).Within 0xFF :=
  Word.within_ofInt (b := 8) h.1 (by omega) (by omega)

theorem within_value {n : Int} (h : 0 ≤ n ∧ n ≤ 0x7FFF) : (Word.ofInt n).Within 0x7FFF :=
  Word.within_ofInt (b := 15) h.1 (by omega) (by omega)

theorem WellFormed.body_within (h : isa.WellFormed) (hi : isa.Admits i) (hc : i.toClass ≠ .push) :
    i.body.Within 0x0FFF := by
  cases i with
  | push n => exact absurd rfl hc
  | copy s d =>
    apply Word.Within.or
    · exact ((within_register hi.1).shiftLeft 8).mono (by decide)
    · exact ((within_register hi.2).shiftLeft 4).mono (by decide)
  | jump code =>
    obtain ⟨m, hm⟩ := hi
    exact within_of_lt (h.jump m code hm)
  | operation code =>
    obtain ⟨m, hm⟩ := hi
    exact within_of_lt (h.alu m code hm)
  | peripheral n r code =>
    obtain ⟨hn, hr, m, hm, -⟩ := hi
    apply Word.Within.or
    · apply Word.Within.or
      · exact ((within_peripheral hn).shiftLeft 8).mono (by decide)
      · exact ((within_register hr).shiftLeft 4).mono (by decide)
    · exact (h.io m code hm).mono (by decide)
  | system flag n =>
    obtain ⟨rfl, hn⟩ := hi
    apply Word.Within.or
    · exact h.sysFlag.mono (by decide)
    · exact (within_index hn).mono (by decide)

theorem WellFormed.distinctTags (h : isa.WellFormed) : isa.DistinctTags :=
  fun c hc d hd hne heq => absurd (h.distinct c hc d hd heq) hne

theorem WellFormed.classAmong?_pack (h : isa.WellFormed) (hi : isa.Admits i) {order : List Class}
    (ho : ∀ c, c ∈ order) : isa.classAmong? order (isa.pack i) = some i.toClass := by
  rw [h.distinctTags.classAmong?_eq_some_iff fun c _ => ho c]
  by_cases hc : i.toClass = .push
  · refine .inl ⟨Word.and_push_ne_zero_iff.mp ?_, hc⟩
    rw [pack, hc, h.tag_push, Word.or_and]
    simp
  · have ht := h.tag_within hc
    have hb := h.body_within hi hc
    have hw : isa.pack i &&& 0x8000 = 0 := by
      rw [pack, Word.or_and, ht.and_eq_zero (by decide), hb.and_eq_zero (by decide)]
      rfl
    have htag : isa.pack i &&& 0xF000 = isa.tag i.toClass := by
      rw [pack, Word.or_and, ht.and_eq_self (by decide), hb.and_eq_zero (by decide),
        UInt16.or_zero]
    refine .inr ⟨fun hpush => Word.and_push_ne_zero_iff.mpr hpush hw, hc, ?_⟩
    rw [htag, h.tag?_eq hc]

theorem WellFormed.pack_and (h : isa.WellFormed) (hc : i.toClass ≠ .push) {m : Word}
    (hm : 0x7000 &&& m = 0) : isa.pack i &&& m = i.body &&& m := by
  rw [pack, Word.or_and, (h.tag_within hc).and_eq_zero hm, UInt16.zero_or]

theorem WellFormed.pack_push_and (h : isa.WellFormed) {n : Int} (hn : 0 ≤ n ∧ n ≤ 0x7FFF) :
    isa.pack (.push n) &&& 0x7FFF = Word.ofInt n := by
  have ht : isa.tag (Instruction.push n).toClass = 0x8000 := h.tag_push
  rw [pack, Word.or_and, ht, Instruction.body, (within_value hn).and_eq_self (by decide)]
  exact UInt16.zero_or

theorem WellFormed.ofWord_pack (h : isa.WellFormed) (hi : isa.Admits i) :
    Instruction.ofWord i.toClass (isa.pack i) = i := by
  cases i with
  | push n =>
    obtain ⟨h₀, h₁⟩ := hi
    simp only [Instruction.ofWord, Instruction.toClass, h.pack_push_and ⟨h₀, h₁⟩]
    rw [Word.toNat_ofInt h₀ (by omega)]
  | copy s d =>
    obtain ⟨⟨hs₀, hs₁⟩, hd₀, hd₁⟩ := hi
    have hc : (Instruction.copy s d).toClass ≠ .push := nofun
    have hs := within_register ⟨hs₀, hs₁⟩
    have hd := within_register ⟨hd₀, hd₁⟩
    have hs' : (isa.pack (.copy s d) >>> 8) &&& 15 = Word.ofInt s := by
      apply hs.shiftRight_and (by decide)
      rw [h.pack_and hc (by decide), Instruction.body, Word.or_and,
        (hs.shiftLeft 8).and_eq_self (by decide), (hd.shiftLeft 4).and_eq_zero (by decide),
        UInt16.or_zero]
    have hd' : (isa.pack (.copy s d) >>> 4) &&& 15 = Word.ofInt d := by
      apply hd.shiftRight_and (by decide)
      rw [h.pack_and hc (by decide), Instruction.body, Word.or_and,
        (hs.shiftLeft 8).and_eq_zero (by decide), (hd.shiftLeft 4).and_eq_self (by decide),
        UInt16.zero_or]
    simp only [Instruction.ofWord, Instruction.toClass, hs', hd']
    rw [Word.toNat_ofInt hs₀ (by omega), Word.toNat_ofInt hd₀ (by omega)]
  | jump code =>
    have hc : (Instruction.jump code).toClass ≠ .push := nofun
    have hb := h.body_within hi hc
    simp only [Instruction.ofWord, Instruction.toClass]
    rw [h.pack_and hc (by decide), hb]
    rfl
  | operation code =>
    have hc : (Instruction.operation code).toClass ≠ .push := nofun
    have hb := h.body_within hi hc
    simp only [Instruction.ofWord, Instruction.toClass]
    rw [h.pack_and hc (by decide), hb]
    rfl
  | peripheral n r code =>
    obtain ⟨⟨hn₀, hn₁⟩, ⟨hr₀, hr₁⟩, m, hm, -⟩ := hi
    have hc : (Instruction.peripheral n r code).toClass ≠ .push := nofun
    have hn := within_peripheral ⟨hn₀, hn₁⟩
    have hr := within_register ⟨hr₀, hr₁⟩
    have hcode := h.io m code hm
    have hn' : (isa.pack (.peripheral n r code) >>> 8) &&& 7 = Word.ofInt n := by
      apply hn.shiftRight_and (by decide)
      rw [h.pack_and hc (by decide), Instruction.body, Word.or_and, Word.or_and,
        (hn.shiftLeft 8).and_eq_self (by decide), (hr.shiftLeft 4).and_eq_zero (by decide),
        hcode.and_eq_zero (by decide), UInt16.or_zero, UInt16.or_zero]
    have hr' : (isa.pack (.peripheral n r code) >>> 4) &&& 15 = Word.ofInt r := by
      apply hr.shiftRight_and (by decide)
      rw [h.pack_and hc (by decide), Instruction.body, Word.or_and, Word.or_and,
        (hn.shiftLeft 8).and_eq_zero (by decide), (hr.shiftLeft 4).and_eq_self (by decide),
        hcode.and_eq_zero (by decide), UInt16.zero_or, UInt16.or_zero]
    have hc' : isa.pack (.peripheral n r code) &&& 0x080F = code := by
      rw [h.pack_and hc (by decide), Instruction.body, Word.or_and, Word.or_and,
        (hn.shiftLeft 8).and_eq_zero (by decide), (hr.shiftLeft 4).and_eq_zero (by decide),
        hcode.and_eq_self (by decide), UInt16.zero_or, UInt16.zero_or]
    simp only [Instruction.ofWord, Instruction.toClass, hn', hr', hc']
    rw [Word.toNat_ofInt hn₀ (by omega), Word.toNat_ofInt hr₀ (by omega)]
  | system flag n =>
    obtain ⟨rfl, hn₀, hn₁⟩ := hi
    have hc : (Instruction.system isa.sysFlag n).toClass ≠ .push := nofun
    have hn := within_index ⟨hn₀, hn₁⟩
    have hf' : isa.pack (.system isa.sysFlag n) &&& 0x0F00 = isa.sysFlag := by
      rw [h.pack_and hc (by decide), Instruction.body, Word.or_and,
        h.sysFlag.and_eq_self (by decide), hn.and_eq_zero (by decide), UInt16.or_zero]
    have hn' : isa.pack (.system isa.sysFlag n) &&& 0xFF = Word.ofInt n := by
      rw [h.pack_and hc (by decide), Instruction.body, Word.or_and,
        h.sysFlag.and_eq_zero (by decide), hn.and_eq_self (by decide), UInt16.zero_or]
    simp only [Instruction.ofWord, Instruction.toClass, hf', hn']
    rw [Word.toNat_ofInt hn₀ (by omega)]

/-- Decoding undoes packing. -/
theorem WellFormed.decodeAmong?_pack (h : isa.WellFormed) (hi : isa.Admits i) {order : List Class}
    (ho : ∀ c, c ∈ order) : isa.decodeAmong? order (isa.pack i) = some i := by
  rw [decodeAmong?, h.classAmong?_pack hi ho, Option.map_some, h.ofWord_pack hi]

end InstructionSet

end B100
