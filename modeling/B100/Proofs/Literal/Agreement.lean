import B100.Proofs.Literal.Index

/-! # Shorts and indexes side by side

A number in a source is read as a short or as an index, depending on the instruction, and as a short
when it comes from the settings. The two readings agree on plain decimal numbers and on hexadecimal
ones after `0x`. A text that both accept is one of these, or else has a zero in front of further
digits, which a short takes for the mark of an octal number.
-/

namespace B100

open Text

namespace Literal

/-- The texts that both readings take in the same way, if they take them at all. -/
inductive IsCommon : Text → Prop
  | decimal {sg digits : Text} (hsign : sg ∈ signs) (hdigits : IsDigits 10 digits)
    (hzero : digits = "0" ∨ digits.head? ≠ some '0'.toUInt8) : IsCommon (sg ++ digits)
  | hex {digits : Text} (hdigits : IsDigits 16 digits) : IsCommon ("0x" ++ digits)

/-- An optional sign, a zero, and at least one octal digit. -/
inductive IsZeroLed : Text → Prop
  | mk {sg digits : Text} (hsign : sg ∈ signs) (hne : digits ≠ []) (hdigits : IsDigits 8 digits) :
    IsZeroLed (sg ++ '0'.toUInt8 :: digits)

section Digits

variable {sg digits s : Text}

theorem sign_append (hsign : sg ∈ signs) (hdigits : IsDigits 10 digits) :
    sign (sg ++ digits) = (sg == "-", digits) := by
  simp only [signs, List.mem_cons, List.not_mem_nil, or_false] at hsign
  rcases hsign with rfl | rfl | rfl
  · exact hdigits.sign_eq (by norm_num)
  · rfl
  · rfl

theorem number?_append (hsign : sg ∈ signs) (hdigits : IsDigits 10 digits) :
    number? (sg ++ digits) =
      (natural? (radix digits).1 (radix digits).2).map (signed (sg == "-")) := by
  rw [number?, sign_append hsign hdigits]

theorem indexNumber?_append (hsign : sg ∈ signs) (hdigits : IsDigits 10 digits) :
    indexNumber? (sg ++ digits) = (natural? 10 digits).map (signed (sg == "-")) := by
  have hno : ∀ sg ∈ signs, 'x'.toUInt8 ∉ sg := by decide
  have hx : 'x'.toUInt8 ∉ digitsBelow 10 := by decide
  have hmark : after? (sg ++ digits) "0x" = none := by
    apply after?_eq_none (b := 'x'.toUInt8) (by decide)
    rw [List.mem_append, not_or]
    exact ⟨hno sg hsign, fun hmem => hx (hdigits _ hmem)⟩
  rw [indexNumber?, hmark]
  simp only [signed?, sign_append hsign hdigits]

theorem IsDigits.radix_eq (h : IsDigits 10 digits)
    (hzero : digits = "0" ∨ digits.head? ≠ some '0'.toUInt8) : radix digits = (10, digits) := by
  rcases hzero with rfl | hzero
  · rfl
  · cases digits with
    | nil => rfl
    | cons b rest =>
      have hsharp : '#'.toUInt8 ∉ digitsBelow 10 := by decide
      exact radix_decimal (by simpa using hzero)
        (ne_of_mem_of_not_mem (h b List.mem_cons_self) hsharp) rest

theorem IsCommon.number?_eq (h : IsCommon s) : number? s = indexNumber? s := by
  cases h with
  | decimal hsign hdigits hzero =>
    rw [number?_append hsign hdigits, hdigits.radix_eq hzero, indexNumber?_append hsign hdigits]
  | @hex digits hdigits =>
    have hunsigned : sign ("0x" ++ digits) = (false, "0x" ++ digits) := rfl
    have hmark : Text.utf8 "0x" ∈ hexMarks := by decide
    rw [number?, hunsigned, radix_hex hmark, indexNumber?, after?_append]
    simp only [signed?, hdigits.sign_eq (Nat.le_refl _)]

theorem IsDigits.of_octal (h : IsDigits 8 s) : IsDigits 10 s := by
  have hoctal : digitsBelow 8 ⊆ digitsBelow 10 := by decide
  exact fun b hb => hoctal (h b hb)

theorem IsDigits.zero_cons (h : IsDigits 10 s) : IsDigits 10 ('0'.toUInt8 :: s) :=
  List.forall_mem_cons.mpr ⟨by decide, h⟩

theorem natural?_radix_zero_cons (hne : digits ≠ []) (h : IsDigits 10 digits) :
    natural? (radix ('0'.toUInt8 :: digits)).1 (radix ('0'.toUInt8 :: digits)).2 =
      natural? 8 digits := by
  obtain ⟨b, rest, rfl⟩ := List.exists_cons_of_ne_nil hne
  have hletters : 'x'.toUInt8 ∉ digitsBelow 10 ∧ 'X'.toUInt8 ∉ digitsBelow 10 := by decide
  have hb := h b List.mem_cons_self
  rw [radix_octal (ne_of_mem_of_not_mem hb hletters.1) (ne_of_mem_of_not_mem hb hletters.2)]

end Digits

section Both

variable {s : Text} {m n : Int}

theorem IsSigned.exists_digits (h : IsSigned 10 s n) :
    ∃ sg ∈ signs, ∃ digits, IsDigits 10 digits ∧ s = sg ++ digits := by
  cases h with
  | unsigned h => exact ⟨[], by decide, s, h.isDigits, rfl⟩
  | plus h => exact ⟨"+", by decide, _, h.isDigits, rfl⟩
  | minus h => exact ⟨"-", by decide, _, h.isDigits, rfl⟩

theorem IsSignedBehindMark.isBroken (h : IsSignedBehindMark s n) : IsBroken s := by
  have hmark : Text.utf8 "0x" ≠ [] := by decide
  cases h with
  | plus h => exact .signAgain hmark (.inl rfl) _
  | minus h => exact .signAgain hmark (.inr rfl) _

/-- What can be read both ways is read in the same way or has a zero in front. -/
theorem isCommon_or_isZeroLed (hm : number? s = some m) (hn : indexNumber? s = some n) :
    IsCommon s ∨ IsZeroLed s := by
  rcases indexNumber?_eq_some_iff.mp hn with (h | h) | h
  · obtain ⟨sg, hsign, digits, hdigits, rfl⟩ := h.exists_digits
    by_cases hzero : digits = "0" ∨ digits.head? ≠ some '0'.toUInt8
    · exact .inl (.decimal hsign hdigits hzero)
    · -- The digits after the zero are a numeral in base eight, or there would be no short.
      rw [not_or, not_not] at hzero
      obtain ⟨digits, rfl⟩ := List.head?_eq_some_iff.mp hzero.2
      have hne : digits ≠ [] := by
        rintro rfl
        exact hzero.1 rfl
      rw [number?_append hsign hdigits,
        natural?_radix_zero_cons hne fun b hb => hdigits b (List.mem_cons_of_mem _ hb)] at hm
      obtain ⟨k, hk, -⟩ := Option.map_eq_some_iff.mp hm
      exact .inr (.mk hsign hne ((natural?_eq_some_iff (by norm_num)).mp hk).isDigits)
  · exact .inl (.hex h.isDigits)
  · exact absurd (number?_eq_some_iff.mp hm) h.isBroken.not_isNumber

end Both

section Octal

variable {s digits : Text} {m n : Int} {k : Nat}

/-- Octal digits stand for more in base ten as soon as one of them counts before the last. -/
theorem ofDigits_eight_eq_ten_iff {ds : List Nat} (h : ∀ d ∈ ds, d < 8) :
    Nat.ofDigits 8 ds = Nat.ofDigits 10 ds ↔ Nat.ofDigits 8 ds < 8 := by
  cases ds with
  | nil => simp
  | cons d ds =>
    have hd : d < 8 := h d List.mem_cons_self
    have hle : Nat.ofDigits 8 ds ≤ Nat.ofDigits 10 ds := Nat.ofDigits_monotone ds (by norm_num)
    have hzero : Nat.ofDigits 8 ds = 0 → Nat.ofDigits 10 ds = 0 := by
      intro hds
      rw [List.eq_replicate_of_mem (Nat.digits_zero_of_eq_zero (by norm_num) hds)]
      simp
    simp only [Nat.ofDigits_cons]
    omega

theorem IsNumeral.exists_decimal (h : IsNumeral 8 s k) :
    ∃ d, IsNumeral 10 s d ∧ (k = d ↔ k < 8) := by
  obtain ⟨hne, ds, hds, rfl⟩ := h
  refine ⟨Nat.ofDigits 10 ds.reverse, ⟨hne, ds, hds.imp fun b d hd => ?_, rfl⟩, ?_⟩
  · exact ⟨Nat.lt_trans hd.1 (by norm_num), hd.2⟩
  · exact ofDigits_eight_eq_ten_iff (by simpa using lt_base_of_forall₂ hds)

theorem natural?_zero_cons (hne : digits ≠ []) :
    natural? 10 ('0'.toUInt8 :: digits) = natural? 10 digits := by
  obtain ⟨b, rest, rfl⟩ := List.exists_cons_of_ne_nil hne
  rfl

/-- With a zero in front, the readings agree on the numbers of one digit only. -/
theorem IsZeroLed.eq_iff (h : IsZeroLed s) (hm : number? s = some m)
    (hn : indexNumber? s = some n) : m = n ↔ m.natAbs < 8 := by
  obtain ⟨hsign, hne, hdigits⟩ := h
  rw [number?_append hsign hdigits.of_octal.zero_cons,
    natural?_radix_zero_cons hne hdigits.of_octal] at hm
  obtain ⟨k, hk, rfl⟩ := Option.map_eq_some_iff.mp hm
  obtain ⟨d, hd, hiff⟩ := ((natural?_eq_some_iff (by norm_num)).mp hk).exists_decimal
  rw [indexNumber?_append hsign hdigits.of_octal.zero_cons, natural?_zero_cons hne,
    (natural?_eq_some_iff (by norm_num)).mpr hd, Option.map_some] at hn
  obtain rfl := Option.some.inj hn
  unfold signed
  split <;> omega

end Octal

theorem number?_of_short {s : Text} {n : Int} (h : short s = .ok n) : number? s = some n :=
  number?_eq_some_iff.mpr (short_eq_ok_iff.mp h).1

theorem indexNumber?_of_index {s : Text} {n : Int} (h : index s = .ok n) :
    indexNumber? s = some n :=
  (index_eq_ok_iff_indexNumber?.mp h).1

/-- A text that is both a short and an index is the same number either way, unless it has a zero in
front of octal digits. With such a zero the two numbers differ from eight on. Plain decimal numbers
and hexadecimal ones after the mark are shorts exactly if they are indexes. -/
theorem readings_agree_but_for_leading_zeros (s : Text) :
    (∀ m n, short s = .ok m → index s = .ok n → ¬ IsZeroLed s → m = n) ∧
    (∀ m n, short s = .ok m → index s = .ok n → IsZeroLed s → (m = n ↔ m.natAbs < 8)) ∧
    (IsCommon s → ∀ n, short s = .ok n ↔ index s = .ok n) := by
  refine ⟨fun m n hm hn hzero => ?_, fun m n hm hn hzero => ?_, fun hcommon n => ?_⟩
  · have hm := number?_of_short hm
    have hn := indexNumber?_of_index hn
    have hcommon := (isCommon_or_isZeroLed hm hn).resolve_right hzero
    exact Option.some.inj (hm.symm.trans (hcommon.number?_eq.trans hn))
  · exact hzero.eq_iff (number?_of_short hm) (indexNumber?_of_index hn)
  · rw [short_eq_ok_iff, ← number?_eq_some_iff, hcommon.number?_eq, index_eq_ok_iff_indexNumber?]

example : short (utf8 "-017") = .ok (-15) ∧ index (utf8 "-017") = .ok (-17) := ⟨rfl, rfl⟩

end Literal

end B100
