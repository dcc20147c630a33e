import B100.Proofs.Encoding.Faults
import B100.Proofs.Literal.Grammar
import B100.Proofs.Text.Trimming

/-! # Register pairs

A copy names two registers, each in one or two digits, with a comma between them and spacing around
both. A text that is written so can be taken apart in one way only.
-/

namespace B100

open Encoder Operand Text Literal

/-- Tab, line feed, form feed, carriage return and space. -/
def spacing : Text := "\t\n\x0C\r "

/-- A register of one or two digits with spacing around them. -/
@[ext] structure RegisterSpelling where
  lead : Text
  digits : Text
  trail : Text
  number : Nat
  lead_spacing : ∀ b ∈ lead, b ∈ spacing
  trail_spacing : ∀ b ∈ trail, b ∈ spacing
  numeral : IsNumeral 10 digits number
  length_le : digits.length ≤ 2

@[ext] structure PairSpelling where
  source : RegisterSpelling
  destination : RegisterSpelling

namespace Operand

variable {s : Text} {b : UInt8} {n : Nat}

theorem isSpacing_iff : isSpacing b = true ↔ b ∈ spacing := by
  have hspacing : spacing = [0x09, 0x0A, 0x0C, 0x0D, 0x20] := rfl
  simp only [isSpacing, hspacing, List.contains_iff_mem, List.mem_cons, List.not_mem_nil, or_false]
  tauto

theorem bytes_of_isNumeral (h : IsNumeral 10 s n) :
    ∀ b ∈ s, isDigit b = true ∧ isSpacing b = false ∧ b ≠ ','.toUInt8 :=
  h.forall_mem (by decide +kernel)

theorem isOneOrTwoDigits_of_isNumeral (h : IsNumeral 10 s n) (hlen : s.length ≤ 2) :
    isOneOrTwoDigits s = true := by
  simp only [isOneOrTwoDigits, Bool.and_eq_true, decide_eq_true_eq, List.all_eq_true]
  exact ⟨⟨List.length_pos_iff.mpr h.1, hlen⟩, fun b hb => (bytes_of_isNumeral h b hb).1⟩

theorem stripSpacing_eq (s : Text) :
    stripSpacing s = (s.dropWhile isSpacing).rdropWhile isSpacing := rfl

theorem spacing_append_stripSpacing_append (s : Text) :
    s.takeWhile isSpacing ++ stripSpacing s ++
      (s.dropWhile isSpacing).rtakeWhile isSpacing = s := by
  rw [stripSpacing_eq, List.append_assoc, List.rdropWhile_append_rtakeWhile,
    List.takeWhile_append_dropWhile]

end Operand

namespace RegisterSpelling

variable (r : RegisterSpelling)

def text : Text := r.lead ++ r.digits ++ r.trail

theorem isSpacing_digits : ∀ b ∈ r.digits, isSpacing b = false :=
  fun b hb => (bytes_of_isNumeral r.numeral b hb).2.1

theorem isSpacing_lead : ∀ b ∈ r.lead, isSpacing b = true :=
  fun b hb => isSpacing_iff.mpr (r.lead_spacing b hb)

theorem isSpacing_trail : ∀ b ∈ r.trail, isSpacing b = true :=
  fun b hb => isSpacing_iff.mpr (r.trail_spacing b hb)

theorem dropWhile_digits_append :
    (r.digits ++ r.trail).dropWhile isSpacing = r.digits ++ r.trail := by
  obtain ⟨b, t, ht⟩ := List.exists_cons_of_ne_nil r.numeral.1
  have hb := r.isSpacing_digits b (ht ▸ List.mem_cons_self)
  rw [ht, List.cons_append, List.dropWhile_cons_of_neg (by simp [hb])]

theorem dropWhile_text : r.text.dropWhile isSpacing = r.digits ++ r.trail := by
  rw [text, List.append_assoc, List.dropWhile_append_of_pos r.isSpacing_lead,
    r.dropWhile_digits_append]

theorem stripSpacing_text : stripSpacing r.text = r.digits := by
  rw [stripSpacing_eq, dropWhile_text, rdropWhile_append_of_pos r.isSpacing_trail,
    List.rdropWhile_eq_self_iff]
  intro hne
  simp [r.isSpacing_digits _ (List.getLast_mem hne)]

theorem comma_notMem_text : ','.toUInt8 ∉ r.text := by
  have hcomma : isSpacing ','.toUInt8 = false := by decide
  simp only [text, List.mem_append, not_or]
  refine ⟨⟨fun h => ?_, fun h => ?_⟩, fun h => ?_⟩
  · cases hcomma.symm.trans (r.isSpacing_lead _ h)
  · exact (bytes_of_isNumeral r.numeral _ h).2.2 rfl
  · cases hcomma.symm.trans (r.isSpacing_trail _ h)

theorem register?_text : register? r.text = some r.number := by
  simp only [register?, stripSpacing_text, isOneOrTwoDigits_of_isNumeral r.numeral r.length_le,
    if_true]
  exact (natural?_eq_some_iff (by norm_num)).mpr r.numeral

/-- Spacing and digits are told apart by their bytes. -/
theorem text_injective : Function.Injective text := by
  intro r q h
  have hdigits : r.digits = q.digits := by
    rw [← r.stripSpacing_text, h, q.stripSpacing_text]
  have htrail : r.trail = q.trail := by
    have hdrop := congrArg (List.dropWhile isSpacing) h
    rw [dropWhile_text, dropWhile_text, hdigits] at hdrop
    exact List.append_cancel_left hdrop
  have hlead : r.lead = q.lead := by
    simp only [text, hdigits, htrail] at h
    exact List.append_cancel_right (List.append_cancel_right h)
  have hnumber : r.number = q.number := by
    have hr := r.register?_text
    rw [h, q.register?_text] at hr
    exact (Option.some.inj hr).symm
  exact RegisterSpelling.ext hlead hdigits htrail hnumber

theorem exists_of_register? {s : Text} {n : Nat} (h : register? s = some n) :
    ∃ r : RegisterSpelling, r.text = s ∧ r.number = n := by
  simp only [register?] at h
  split at h
  · next hdigits =>
    simp only [isOneOrTwoDigits, Bool.and_eq_true, decide_eq_true_eq] at hdigits
    refine ⟨⟨s.takeWhile isSpacing, stripSpacing s, (s.dropWhile isSpacing).rtakeWhile isSpacing, n,
      ?_, ?_, ?_, hdigits.1.2⟩, spacing_append_stripSpacing_append s, rfl⟩
    · exact fun b hb => isSpacing_iff.mp (List.mem_takeWhile_imp hb)
    · exact fun b hb => isSpacing_iff.mp (List.mem_rtakeWhile_imp hb)
    · exact (natural?_eq_some_iff (by norm_num)).mp h
  · cases h

end RegisterSpelling

namespace PairSpelling

def text (p : PairSpelling) : Text := p.source.text ++ ','.toUInt8 :: p.destination.text

theorem cut_text (p : PairSpelling) :
    p.text.cut (· == ','.toUInt8) = (p.source.text, some p.destination.text) :=
  cut_beq_append_cons p.source.comma_notMem_text _

/-- The comma tells the registers apart, since neither has one. -/
theorem text_injective : Function.Injective text := by
  intro p q h
  have hcut := p.cut_text
  rw [h, q.cut_text, Prod.mk.injEq, Option.some_inj] at hcut
  exact PairSpelling.ext (RegisterSpelling.text_injective hcut.1.symm)
    (RegisterSpelling.text_injective hcut.2.symm)

theorem registerPair?_eq_some_iff {s : Text} {a b : Nat} :
    registerPair? s = some (a, b) ↔
      ∃ p : PairSpelling, p.text = s ∧ p.source.number = a ∧ p.destination.number = b := by
  constructor
  · intro h
    unfold registerPair? at h
    split at h
    · cases h
    · next first second hcut =>
      split at h
      · next source destination hsource hdestination =>
        obtain ⟨rfl, rfl⟩ : source = a ∧ destination = b := by simpa using h
        obtain ⟨comma, rfl, hcomma, -⟩ := exists_of_cut_eq_some hcut
        obtain rfl : comma = ','.toUInt8 := by simpa using hcomma
        obtain ⟨r, rfl, hr⟩ := RegisterSpelling.exists_of_register? hsource
        obtain ⟨q, rfl, hq⟩ := RegisterSpelling.exists_of_register? hdestination
        exact ⟨⟨r, q⟩, rfl, hr, hq⟩
      · cases h
  · rintro ⟨p, rfl, rfl, rfl⟩
    simp only [registerPair?, cut_text, RegisterSpelling.register?_text]

theorem registerPair?_eq_none_iff {s : Text} :
    registerPair? s = none ↔ ¬ ∃ p : PairSpelling, p.text = s := by
  rw [Option.eq_none_iff_forall_ne_some]
  constructor
  · rintro h ⟨p, hp⟩
    exact h _ (registerPair?_eq_some_iff.mpr ⟨p, hp, rfl, rfl⟩)
  · rintro h ⟨a, b⟩ hpair
    obtain ⟨p, hp, -, -⟩ := registerPair?_eq_some_iff.mp hpair
    exact h ⟨p, hp⟩

end PairSpelling

namespace Encoding

theorem result_copy_eq_ok_iff {e : Encoding} {resolve : Text → Option Text} {operands : Text}
    {w : Word} :
    result resolve (e.copy operands) = .ok w ↔
      ∃ a b : Nat, registerPair? operands = some (a, b) ∧ a ≤ 15 ∧ b ≤ 15 ∧
        w = e.isa.tag .copy ||| Word.ofInt a <<< 8 ||| Word.ofInt b <<< 4 := by
  unfold copy
  cases registerPair? operands with
  | none => simp
  | some pair =>
    obtain ⟨a, b⟩ := pair
    simp only [result_guard_eq_ok_iff, result_pure, Except.ok.injEq, Option.some_inj, Prod.mk.injEq,
      Nat.not_lt]
    constructor
    · rintro ⟨ha, hb, rfl⟩
      exact ⟨a, b, ⟨rfl, rfl⟩, ha, hb, rfl⟩
    · rintro ⟨_, _, ⟨rfl, rfl⟩, ha, hb, rfl⟩
      exact ⟨ha, hb, rfl⟩

end Encoding

/-- A copy is encoded exactly if its operands are two registers up to 15 with a comma between them.
With a register beyond it is out of range, and operands that are written in any other way are a
syntax error. The operands determine all their parts. -/
theorem copy_reads_exactly_register_pairs (labels : Labels) (resolve : Text → Option Text)
    (operands : Text) :
    let copied := Encoding.copy ⟨.standard, labels⟩ operands
    (∀ w, result resolve copied = .ok w ↔
      ∃ p : PairSpelling, p.text = operands ∧ p.source.number ≤ 15 ∧ p.destination.number ≤ 15 ∧
        w = (0x1000 : Word) ||| Word.ofInt p.source.number <<< 8 |||
          Word.ofInt p.destination.number <<< 4) ∧
    (outcome resolve copied = .error .outOfRange ↔
      ∃ p : PairSpelling, p.text = operands ∧
        (15 < p.source.number ∨ 15 < p.destination.number)) ∧
    (outcome resolve copied = .error .syntaxError ↔ ¬ ∃ p : PairSpelling, p.text = operands) ∧
    (∀ p q : PairSpelling, p.text = operands → q.text = operands → p = q) := by
  intro copied
  refine ⟨fun w => ?_, ?_, ?_, fun p q hp hq => PairSpelling.text_injective (hp.trans hq.symm)⟩
  · rw [Encoding.result_copy_eq_ok_iff]
    constructor
    · rintro ⟨a, b, hpair, ha, hb, rfl⟩
      obtain ⟨p, hp, rfl, rfl⟩ := PairSpelling.registerPair?_eq_some_iff.mp hpair
      exact ⟨p, hp, ha, hb, rfl⟩
    · rintro ⟨p, hp, hs, hd, rfl⟩
      exact ⟨_, _, PairSpelling.registerPair?_eq_some_iff.mpr ⟨p, hp, rfl, rfl⟩, hs, hd, rfl⟩
  · rw [Encoding.outcome_copy_eq_error_iff]
    constructor
    · rintro (⟨-, hk⟩ | ⟨a, b, hpair, hrange, -⟩)
      · cases hk
      · obtain ⟨p, hp, rfl, rfl⟩ := PairSpelling.registerPair?_eq_some_iff.mp hpair
        exact ⟨p, hp, hrange⟩
    · rintro ⟨p, hp, hrange⟩
      exact .inr ⟨_, _, PairSpelling.registerPair?_eq_some_iff.mpr ⟨p, hp, rfl, rfl⟩, hrange, rfl⟩
  · rw [Encoding.outcome_copy_eq_error_iff, ← PairSpelling.registerPair?_eq_none_iff]
    constructor
    · rintro (⟨hnone, -⟩ | ⟨a, b, -, -, hk⟩)
      · exact hnone
      · cases hk
    · intro hnone
      exact .inl ⟨hnone, rfl⟩

end B100
