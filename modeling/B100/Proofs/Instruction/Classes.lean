import B100.InstructionSet
import Mathlib.Data.Nat.Bitwise

/-! # Classes of words

The class of a word is found by trying the classes of the instruction set one after another, in an
order that nothing fixes. If no two classes share a tag, at most one of them fits, so every order
finds the same class.
-/

namespace B100

namespace Class

theorem mem_all (c : Class) : c ∈ all := by
  cases c <;> decide

end Class

/-- A push is known by bit 15 alone. -/
def Word.IsPush (w : Word) : Prop := w.toNat.testBit 15 = true

instance (w : Word) : Decidable w.IsPush := inferInstanceAs (Decidable (_ = _))

theorem Word.and_push_ne_zero_iff {w : Word} : w &&& 0x8000 ≠ 0 ↔ w.IsPush := by
  have hbit : (w &&& 0x8000).toNat = (w.toNat.testBit 15).toNat * 2 ^ 15 := by
    rw [UInt16.toNat_and]
    exact Nat.and_two_pow w.toNat 15
  rw [Ne, ← UInt16.toNat_inj, hbit, Word.IsPush]
  cases w.toNat.testBit 15 <;> decide

theorem Word.testBit_of_testBit_tag {w : Word} {i : Nat}
    (h : (w &&& 0xF000).toNat.testBit i = true) : w.toNat.testBit i = true ∧ 12 ≤ i := by
  have hmask : ∀ i < 12, Nat.testBit 0xF000 i = false := by decide
  rw [UInt16.toNat_and, Nat.testBit_and, Bool.and_eq_true] at h
  refine ⟨h.1, ?_⟩
  by_contra hlt
  exact Bool.false_ne_true ((hmask i (Nat.lt_of_not_le hlt)).symm.trans h.2)

namespace InstructionSet

def DistinctTags (isa : InstructionSet) : Prop :=
  ∀ c ≠ .push, ∀ d ≠ .push, c ≠ d → isa.tag? c = isa.tag? d → isa.tag? c = none

instance (isa : InstructionSet) : Decidable isa.DistinctTags :=
  decidable_of_iff (∀ c ∈ Class.all, ∀ d ∈ Class.all, c ≠ .push → d ≠ .push → c ≠ d →
      isa.tag? c = isa.tag? d → isa.tag? c = none)
    ⟨fun h c hc d hd => h c c.mem_all d d.mem_all hc hd, fun h c _ d _ hc hd => h c hc d hd⟩

def classes (isa : InstructionSet) : List Class := Class.all.filter fun c => (isa.tag? c).isSome

def Visits (isa : InstructionSet) (order : List Class) : Prop := order.Perm isa.classes

instance (isa : InstructionSet) (order : List Class) : Decidable (isa.Visits order) :=
  inferInstanceAs (Decidable (order.Perm _))

/-- A class that no word carries in its top bits: it is missing, or its tag has a bit that is not
part of any tag. -/
def Untagged (isa : InstructionSet) (c : Class) : Prop :=
  ∀ t, isa.tag? c = some t → ∃ i, (i < 12 ∨ i = 15) ∧ t.toNat.testBit i = true

variable {isa : InstructionSet} {w : Word} {c d : Class} {order : List Class}

theorem hasTag_iff : isa.hasTag w c = true ↔ c ≠ .push ∧ isa.tag? c = some (w &&& 0xF000) := by
  rw [hasTag, Bool.and_eq_true, bne_iff_ne, beq_iff_eq]

theorem mem_classes_of_hasTag (h : isa.hasTag w c = true) : c ∈ isa.classes := by
  rw [classes, List.mem_filter, (hasTag_iff.mp h).2]
  exact ⟨c.mem_all, rfl⟩

theorem DistinctTags.eq_of_hasTag (h : isa.DistinctTags) (hc : isa.hasTag w c = true)
    (hd : isa.hasTag w d = true) : c = d := by
  rw [hasTag_iff] at hc hd
  by_contra hne
  have hnone := h c hc.1 d hd.1 hne (hc.2.trans hd.2.symm)
  cases hnone.symm.trans hc.2

/-- Where at most one class fits, a search finds it as soon as it is among those tried. -/
theorem DistinctTags.find?_eq_some_iff (h : isa.DistinctTags)
    (hall : ∀ c, isa.hasTag w c = true → c ∈ order) :
    order.find? (isa.hasTag w) = some c ↔ isa.hasTag w c = true := by
  constructor
  · exact List.find?_some
  · intro hc
    cases hf : order.find? (isa.hasTag w) with
    | none => exact absurd hc (List.find?_eq_none.mp hf c (hall c hc))
    | some d => rw [h.eq_of_hasTag (List.find?_some hf) hc]

theorem classAmong?_of_isPush (h : w.IsPush) : isa.classAmong? order w = some .push := by
  rw [classAmong?, if_pos (by simpa using Word.and_push_ne_zero_iff.mpr h)]

theorem classAmong?_of_not_isPush (h : ¬ w.IsPush) :
    isa.classAmong? order w = order.find? (isa.hasTag w) := by
  rw [classAmong?, if_neg (by simpa using mt Word.and_push_ne_zero_iff.mp h)]

theorem DistinctTags.classAmong?_eq_some_iff (h : isa.DistinctTags)
    (hall : ∀ c, isa.hasTag w c = true → c ∈ order) :
    isa.classAmong? order w = some c ↔
      (w.IsPush ∧ c = .push) ∨ (¬ w.IsPush ∧ c ≠ .push ∧ isa.tag? c = some (w &&& 0xF000)) := by
  by_cases hw : w.IsPush
  · simp only [classAmong?_of_isPush hw, hw, Option.some.injEq, true_and, not_true, false_and,
      or_false, eq_comm]
  · simp only [classAmong?_of_not_isPush hw, hw, false_and, not_false_eq_true, true_and, false_or,
      h.find?_eq_some_iff hall, hasTag_iff]

theorem DistinctTags.classOf?_eq_some_iff (h : isa.DistinctTags) :
    isa.classOf? w = some c ↔
      (w.IsPush ∧ c = .push) ∨ (¬ w.IsPush ∧ c ≠ .push ∧ isa.tag? c = some (w &&& 0xF000)) :=
  h.classAmong?_eq_some_iff fun c _ => c.mem_all

theorem Visits.mem_of_hasTag (ho : isa.Visits order) (h : isa.hasTag w c = true) : c ∈ order :=
  ho.mem_iff.mpr (mem_classes_of_hasTag h)

theorem DistinctTags.classAmong?_eq_classOf? (h : isa.DistinctTags) (ho : isa.Visits order) :
    isa.classAmong? order w = isa.classOf? w := by
  ext c
  rw [h.classAmong?_eq_some_iff fun c => ho.mem_of_hasTag, h.classOf?_eq_some_iff]

theorem Untagged.tag?_ne (h : isa.Untagged c) (hw : ¬ w.IsPush) :
    isa.tag? c ≠ some (w &&& 0xF000) := by
  intro ht
  obtain ⟨i, hi, hbit⟩ := h _ ht
  obtain ⟨hbit, hle⟩ := Word.testBit_of_testBit_tag hbit
  rcases hi with hi | rfl
  · exact absurd hi (Nat.not_lt_of_le hle)
  · exact hw hbit

end InstructionSet

open InstructionSet

/-- The class of a word does not depend on the order in which the classes are tried. It is push if
bit 15 of the word is set, and else the one class that has the top four bits of the word for its
tag. A class that is missing, or has a tag that can be no word's, is never found. -/
theorem class_does_not_depend_on_the_order (isa : InstructionSet) (h : isa.DistinctTags)
    (w : Word) :
    (∀ order, isa.Visits order → isa.classAmong? order w = isa.classOf? w) ∧
    (w.IsPush → isa.classOf? w = some .push) ∧
    (¬ w.IsPush →
      (∀ c, isa.classOf? w = some c ↔ c ≠ .push ∧ isa.tag? c = some (w &&& 0xF000)) ∧
      (isa.classOf? w = none ↔ ∀ c ≠ .push, isa.tag? c ≠ some (w &&& 0xF000))) ∧
    (∀ c, isa.Untagged c → isa.classOf? w = some c → c = .push ∧ w.IsPush) := by
  refine ⟨fun order => h.classAmong?_eq_classOf?, classAmong?_of_isPush, fun hw => ?_,
    fun c hc hfound => ?_⟩
  · have hsome : ∀ c, isa.classOf? w = some c ↔
        c ≠ .push ∧ isa.tag? c = some (w &&& 0xF000) := by
      intro c
      simp only [h.classOf?_eq_some_iff, hw, false_and, not_false_eq_true, true_and, false_or]
    refine ⟨hsome, ?_⟩
    rw [Option.eq_none_iff_forall_ne_some]
    simp only [Ne, hsome, not_and]
  · rcases h.classOf?_eq_some_iff.mp hfound with ⟨hw, rfl⟩ | ⟨hw, -, ht⟩
    · exact ⟨rfl, hw⟩
    · exact absurd ht (hc.tag?_ne hw)

/-- A set without copies, where jumps have another tag and the tag of peripherals is no word's. -/
theorem class_does_not_depend_on_the_order_patched :
    let isa := InstructionSet.standard.patch
      [.tag .copy none, .tag .jump (some 0x6000), .tag .io (some 0x4001)]
    let order : List Class := [.sys, .io, .alu, .jump, .push]
    isa.DistinctTags ∧ isa.Visits order ∧ isa.Untagged .io ∧
      isa.classAmong? order 0x6007 = some .jump ∧ isa.classOf? 0x4001 ≠ some .io := by
  intro isa order
  have hdistinct : isa.DistinctTags := by decide
  have horder : isa.Visits order := by decide
  have hio : isa.Untagged .io := by
    intro t ht
    obtain rfl : 0x4001 = t := Option.some.inj ht
    exact ⟨0, by decide, by decide⟩
  obtain ⟨hvisit, -, hfound, -⟩ := class_does_not_depend_on_the_order isa hdistinct 0x6007
  obtain ⟨-, -, -, huntagged⟩ := class_does_not_depend_on_the_order isa hdistinct 0x4001
  refine ⟨hdistinct, horder, hio, ?_, fun h => ?_⟩
  · rw [hvisit order horder, (hfound (by decide)).1]
    exact ⟨by decide, by decide⟩
  · cases (huntagged .io hio h).1

end B100
