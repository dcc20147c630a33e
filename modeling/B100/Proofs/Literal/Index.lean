import B100.Encoding.Operand
import B100.Proofs.Literal.Grammar

/-! # The grammar of indexes

An index is written in decimal with or without a sign, or in hexadecimal after `0x`. The reader
looks for a sign right before the digits, so behind the mark it takes one, too. These are the only
texts that it accepts beyond the grammar.
-/

namespace B100

open Text

namespace Literal

inductive IsSigned (base : Nat) : Text → Int → Prop
  | unsigned {s : Text} {n : Nat} (h : IsNumeral base s n) : IsSigned base s n
  | plus {s : Text} {n : Nat} (h : IsNumeral base s n) : IsSigned base ('+'.toUInt8 :: s) n
  | minus {s : Text} {n : Nat} (h : IsNumeral base s n) : IsSigned base ('-'.toUInt8 :: s) (-n)

/-- A number of any size, written as indexes are. -/
inductive IsIndex : Text → Int → Prop
  | decimal {s : Text} {n : Int} (h : IsSigned 10 s n) : IsIndex s n
  | hex {digits : Text} {n : Nat} (h : IsNumeral 16 digits n) : IsIndex ("0x" ++ digits) n

/-- A hexadecimal number with its sign behind the mark. -/
inductive IsSignedBehindMark : Text → Int → Prop
  | plus {digits : Text} {n : Nat} (h : IsNumeral 16 digits n) :
    IsSignedBehindMark ("0x+" ++ digits) n
  | minus {digits : Text} {n : Nat} (h : IsNumeral 16 digits n) :
    IsSignedBehindMark ("0x-" ++ digits) (-n)

section Signed

variable {base : Nat} {s : Text} {n : Int}

def signed? (base : Nat) (s : Text) : Option Int :=
  (natural? base (sign s).2).map (signed (sign s).1)

theorem IsDigits.sign_eq (hbase : base ≤ 16) (h : IsDigits base s) : sign s = (false, s) := by
  have hunsigned : ∀ base ≤ 16, ∀ b ∈ digitsBelow base, b ≠ '-'.toUInt8 ∧ b ≠ '+'.toUInt8 := by
    decide +kernel
  cases s with
  | nil => rfl
  | cons b rest =>
    obtain ⟨hminus, hplus⟩ := hunsigned base hbase b (h b List.mem_cons_self)
    exact sign_unsigned hminus hplus rest

theorem signed?_of_sign (hbase : base ≤ 16) {negative : Bool} {t : Text} {m : Nat}
    (hs : sign s = (negative, t)) (h : IsNumeral base t m) :
    signed? base s = some (signed negative m) := by
  rw [signed?, hs, (natural?_eq_some_iff hbase).mpr h, Option.map_some]

theorem signed?_eq_some_iff (hbase : base ≤ 16) : signed? base s = some n ↔ IsSigned base s n := by
  constructor
  · intro h
    obtain ⟨m, hm, rfl⟩ := Option.map_eq_some_iff.mp h
    have hm := (natural?_eq_some_iff hbase).mp hm
    rcases s with _ | ⟨b, rest⟩
    · exact .unsigned hm
    · by_cases hminus : b = '-'.toUInt8
      · subst hminus
        exact .minus hm
      · by_cases hplus : b = '+'.toUInt8
        · subst hplus
          exact .plus hm
        · rw [sign_unsigned hminus hplus] at hm ⊢
          exact .unsigned hm
  · intro h
    cases h with
    | unsigned h => exact signed?_of_sign hbase (h.isDigits.sign_eq hbase) h
    | plus h => exact signed?_of_sign hbase rfl h
    | minus h => exact signed?_of_sign hbase rfl h

theorem IsSigned.forall_mem (hs : IsSigned base s n) {P : UInt8 → Prop}
    (h : ∀ b ∈ '+'.toUInt8 :: '-'.toUInt8 :: digitsBelow base, P b) : ∀ b ∈ s, P b := by
  obtain ⟨hplus, hminus, hdigits⟩ :
      P '+'.toUInt8 ∧ P '-'.toUInt8 ∧ ∀ b ∈ digitsBelow base, P b := by simpa using h
  cases hs with
  | unsigned hs => exact hs.forall_mem hdigits
  | plus hs => exact List.forall_mem_cons.mpr ⟨hplus, hs.forall_mem hdigits⟩
  | minus hs => exact List.forall_mem_cons.mpr ⟨hminus, hs.forall_mem hdigits⟩

end Signed

section Index

variable {s : Text} {m n : Int}

def indexNumber? (s : Text) : Option Int :=
  match s.after? "0x" with
  | some rest => signed? 16 rest
  | none => signed? 10 s

theorem isShort_guard_eq_ok_iff {e : LiteralError} :
    (if isShort m then Except.ok m else .error e) = .ok n ↔
      m = n ∧ -0x8000 ≤ n ∧ n ≤ 0x7FFF := by
  simp only [isShort, Bool.and_eq_true, decide_eq_true_eq]
  constructor
  · intro h
    split_ifs at h with hrange
    obtain rfl := Except.ok.inj h
    exact ⟨rfl, hrange⟩
  · rintro ⟨rfl, hrange⟩
    rw [if_pos hrange]

theorem index_eq_ok_iff_indexNumber? :
    index s = .ok n ↔ indexNumber? s = some n ∧ -0x8000 ≤ n ∧ n ≤ 0x7FFF := by
  unfold index indexNumber? signed?
  cases s.after? "0x" with
  | none =>
    dsimp only
    cases natural? 10 (sign s).2 with
    | none => simp
    | some k => simpa using isShort_guard_eq_ok_iff
  | some rest =>
    dsimp only
    cases natural? 16 (sign rest).2 with
    | none => simp
    | some k => simpa using isShort_guard_eq_ok_iff

theorem not_isSigned_hex {t : Text} : ¬ IsSigned 10 ("0x" ++ t) n := by
  intro h
  have hno : ∀ b ∈ '+'.toUInt8 :: '-'.toUInt8 :: digitsBelow 10, b ≠ 'x'.toUInt8 := by
    decide +kernel
  exact h.forall_mem hno _ (List.mem_append_left t (by decide)) rfl

theorem IsSignedBehindMark.exists_isSigned (h : IsSignedBehindMark s n) :
    ∃ t, s = "0x" ++ t ∧ IsSigned 16 t n := by
  cases h with
  | plus h => exact ⟨_, rfl, .plus h⟩
  | minus h => exact ⟨_, rfl, .minus h⟩

theorem indexNumber?_eq_some_iff :
    indexNumber? s = some n ↔ IsIndex s n ∨ IsSignedBehindMark s n := by
  unfold indexNumber?
  cases hafter : s.after? "0x" with
  | none =>
    have hmark : ∀ t, s ≠ "0x" ++ t := by
      rintro t rfl
      cases hafter.symm.trans (after?_append "0x" t)
    rw [signed?_eq_some_iff (by norm_num)]
    constructor
    · intro h
      exact .inl (.decimal h)
    · rintro ((h | h) | h)
      · exact h
      · exact absurd rfl (hmark _)
      · obtain ⟨t, ht, -⟩ := h.exists_isSigned
        exact absurd ht (hmark t)
  | some t =>
    obtain rfl := after?_eq_some_iff.mp hafter
    rw [signed?_eq_some_iff (Nat.le_refl _)]
    constructor
    · intro h
      cases h with
      | unsigned h => exact .inl (.hex h)
      | plus h => exact .inr (.plus h)
      | minus h => exact .inr (.minus h)
    · intro h
      rcases h with h | h
      · generalize hs : utf8 "0x" ++ t = s at h
        cases h with
        | decimal h => exact absurd (hs ▸ h) not_isSigned_hex
        | hex h =>
          obtain rfl := List.append_cancel_left hs
          exact .unsigned h
      · obtain ⟨u, hu, hsigned⟩ := h.exists_isSigned
        rwa [List.append_cancel_left hu]

theorem index_eq_ok_iff : index s = .ok n ↔
    (IsIndex s n ∨ IsSignedBehindMark s n) ∧ -0x8000 ≤ n ∧ n ≤ 0x7FFF := by
  rw [index_eq_ok_iff_indexNumber?, indexNumber?_eq_some_iff]

theorem IsIndex.not_isSignedBehindMark (h : IsIndex s m) : ¬ IsSignedBehindMark s n := by
  intro hsigned
  obtain ⟨b, t, rfl, hb⟩ : ∃ (b : UInt8) (t : Text), s = "0x" ++ b :: t ∧
      (b = '+'.toUInt8 ∨ b = '-'.toUInt8) := by
    cases hsigned with
    | plus _ => exact ⟨_, _, rfl, .inl rfl⟩
    | minus _ => exact ⟨_, _, rfl, .inr rfl⟩
  generalize hs : utf8 "0x" ++ b :: t = s at h
  cases h with
  | decimal h => exact not_isSigned_hex (hs ▸ h)
  | hex h =>
    have hdigits : ∀ b ∈ digitsBelow 16, ¬ (b = '+'.toUInt8 ∨ b = '-'.toUInt8) := by decide +kernel
    obtain rfl := List.append_cancel_left hs
    exact h.forall_mem hdigits b List.mem_cons_self hb

end Index

/-- Reading an index accepts the numbers of the grammar that fit in 16 bits, and those that have a
sign behind the mark. Where no such sign makes the difference, it accepts exactly the grammar; where
one does, the text is taken as a literal and no setting is asked for. -/
theorem index_reads_the_grammar_and_signs_behind_the_mark (s : Text) :
    (∀ n, index s = .ok n ↔
      (IsIndex s n ∨ IsSignedBehindMark s n) ∧ -0x8000 ≤ n ∧ n ≤ 0x7FFF) ∧
    (∀ m n, IsIndex s m ∨ IsSignedBehindMark s m → IsIndex s n ∨ IsSignedBehindMark s n → m = n) ∧
    ((∀ n, index s = .ok n ↔ IsIndex s n ∧ -0x8000 ≤ n ∧ n ≤ 0x7FFF) ↔
      ∀ n, IsSignedBehindMark s n → n < -0x8000 ∨ 0x7FFF < n) ∧
    (∀ n, IsSignedBehindMark s n → -0x8000 ≤ n → n ≤ 0x7FFF → Operand.index s = pure n) := by
  refine ⟨fun n => index_eq_ok_iff, fun m n hm hn => ?_, ⟨fun hexact n hn => ?_, fun hwide n => ?_⟩,
    fun n hn h₀ h₁ => ?_⟩
  · rw [← indexNumber?_eq_some_iff] at hm hn
    exact Option.some.inj (hm.symm.trans hn)
  · by_contra hrange
    have hok : index s = .ok n := index_eq_ok_iff.mpr ⟨.inr hn, by omega⟩
    exact ((hexact n).mp hok).1.not_isSignedBehindMark hn
  · rw [index_eq_ok_iff]
    constructor
    · rintro ⟨h | h, hrange⟩
      · exact ⟨h, hrange⟩
      · have := hwide n h
        omega
    · rintro ⟨h, hrange⟩
      exact ⟨.inl h, hrange⟩
  · rw [Operand.index, index_eq_ok_iff.mpr ⟨.inr hn, h₀, h₁⟩]

/-- The sign is no part of the grammar there, and a short with it is refused. -/
theorem index_takes_a_sign_behind_the_mark :
    index (utf8 "0x-5") = .ok (-5) ∧ (∀ n, ¬ IsIndex (utf8 "0x-5") n) ∧
      short (utf8 "0x-5") = .error (.malformed (utf8 "0x-5")) := by
  have hfive : IsNumeral 16 (utf8 "5") 5 := (natural?_eq_some_iff (Nat.le_refl _)).mp rfl
  have hsigned : IsSignedBehindMark (utf8 "0x-5") (-5) := .minus hfive
  refine ⟨rfl, fun n hn => ?_, rfl⟩
  exact hn.not_isSignedBehindMark hsigned

end Literal

end B100
