import B100.Literal
import B100.Proofs.Text.Ascii
import Mathlib.Data.List.Forall2
import Mathlib.Data.Nat.Digits.Defs

/-! # The grammar of shorts

How a short may be written, and the number that its digits spell. Reading a short accepts exactly
the texts of this grammar whose number fits in 16 bits, and gives that number.
-/

namespace B100

open Text

namespace Literal

def smallDigits : Text := "0123456789abcdef"

def capitalDigits : Text := "0123456789ABCDEF"

def IsDigit (base : Nat) (b : UInt8) (d : Nat) : Prop :=
  d < base ∧ (smallDigits[d]? = some b ∨ capitalDigits[d]? = some b)

/-- A nonempty run of digits, with its positional value. -/
def IsNumeral (base : Nat) (s : Text) (n : Nat) : Prop :=
  s ≠ [] ∧ ∃ ds, List.Forall₂ (IsDigit base) s ds ∧ n = Nat.ofDigits base ds.reverse

def hexMarks : List Text := ["0x", "0X", "#"]

inductive IsMagnitude : Text → Nat → Prop
  | hex {mark digits : Text} {n : Nat} (hmark : mark ∈ hexMarks) (h : IsNumeral 16 digits n) :
    IsMagnitude (mark ++ digits) n
  | octal {digits : Text} {n : Nat} (h : IsNumeral 8 digits n) :
    IsMagnitude ('0'.toUInt8 :: digits) n
  | zero : IsMagnitude "0" 0
  | decimal {digits : Text} {n : Nat} (h : IsNumeral 10 digits n)
    (hfirst : digits.head? ≠ some '0'.toUInt8) : IsMagnitude digits n

/-- A number of any size, written as shorts are. -/
inductive IsNumber : Text → Int → Prop
  | unsigned {s : Text} {n : Nat} (h : IsMagnitude s n) : IsNumber s n
  | plus {s : Text} {n : Nat} (h : IsMagnitude s n) : IsNumber ('+'.toUInt8 :: s) n
  | minus {s : Text} {n : Nat} (h : IsMagnitude s n) : IsNumber ('-'.toUInt8 :: s) (-n)

section Digits

variable {base : Nat} {s : Text} {n : Nat}

theorem digit?_eq_some_iff {b : UInt8} {d : Nat} (hd : d < 16) :
    digit? b = some d ↔ smallDigits[d]? = some b ∨ capitalDigits[d]? = some b := by
  have h : ∀ d < 16, ∀ n < 256, digit? (UInt8.ofNat n) = some d ↔
      smallDigits[d]? = some (UInt8.ofNat n) ∨ capitalDigits[d]? = some (UInt8.ofNat n) := by
    decide +kernel
  simpa using h d hd b.toNat b.toNat_lt

theorem digitIn?_eq_some_iff (hbase : base ≤ 16) {b : UInt8} {d : Nat} :
    digitIn? base b = some d ↔ IsDigit base b d := by
  rw [digitIn?, Option.filter_eq_some_iff, decide_eq_true_eq, and_comm, IsDigit]
  exact and_congr_right fun hd => digit?_eq_some_iff (by omega)

/-- Digits are read from left to right, and each moves what comes before it up one place. -/
theorem foldlM_digitIn?_eq_some_iff (hbase : base ≤ 16) {m : Nat} :
    s.foldlM (fun n b => (digitIn? base b).map (n * base + ·)) m = some n ↔
      ∃ ds, List.Forall₂ (IsDigit base) s ds ∧ n = ds.foldl (fun n d => d + base * n) m := by
  induction s generalizing m with
  | nil =>
    simp only [List.foldlM_nil, Option.pure_def, Option.some.injEq, List.forall₂_nil_left_iff,
      exists_eq_left, List.foldl_nil, eq_comm]
  | cons b s ih =>
    rw [List.foldlM_cons]
    constructor
    · intro h
      obtain ⟨k, hk, h⟩ := Option.bind_eq_some_iff.mp h
      obtain ⟨d, hd, rfl⟩ := Option.map_eq_some_iff.mp hk
      obtain ⟨ds, hds, rfl⟩ := ih.mp h
      refine ⟨d :: ds, .cons ((digitIn?_eq_some_iff hbase).mp hd) hds, ?_⟩
      rw [List.foldl_cons, Nat.add_comm, Nat.mul_comm]
    · rintro ⟨_, hds, rfl⟩
      cases hds with
      | @cons _ d _ ds hd hds =>
        rw [(digitIn?_eq_some_iff hbase).mpr hd]
        refine ih.mpr ⟨ds, hds, ?_⟩
        rw [List.foldl_cons, Nat.add_comm, Nat.mul_comm]

theorem natural?_eq_some_iff (hbase : base ≤ 16) :
    natural? base s = some n ↔ IsNumeral base s n := by
  have hvalue : ∀ ds : List Nat,
      Nat.ofDigits base ds.reverse = ds.foldl (fun n d => d + base * n) 0 := by
    intro ds
    rw [Nat.ofDigits_eq_foldr, List.foldr_reverse]
    rfl
  unfold natural? IsNumeral
  split
  · next h => simp [List.isEmpty_iff.mp h]
  · next h =>
    rw [foldlM_digitIn?_eq_some_iff hbase, and_iff_right (by simpa using h)]
    simp only [hvalue]

def digitsBelow (base : Nat) : Text := smallDigits.take base ++ capitalDigits.take base

theorem IsNumeral.forall_mem (hs : IsNumeral base s n) {P : UInt8 → Prop}
    (h : ∀ b ∈ digitsBelow base, P b) : ∀ b ∈ s, P b := by
  obtain ⟨-, ds, hds, -⟩ := hs
  induction hds with
  | nil => simp
  | @cons b d s ds hd _ ih =>
    refine List.forall_mem_cons.mpr ⟨h b (List.mem_append.mpr ?_), ih⟩
    obtain ⟨hlt, hb⟩ := hd
    rw [← List.getElem?_take_of_lt hlt, ← List.getElem?_take_of_lt (l := capitalDigits) hlt] at hb
    exact hb.imp List.mem_of_getElem? List.mem_of_getElem?

def IsDigits (base : Nat) (s : Text) : Prop := ∀ b ∈ s, b ∈ digitsBelow base

theorem IsNumeral.isDigits (hs : IsNumeral base s n) : IsDigits base s :=
  hs.forall_mem fun _ hb => hb

theorem lt_base_of_forall₂ {ds : List Nat} (h : List.Forall₂ (IsDigit base) s ds) :
    ∀ d ∈ ds, d < base :=
  ((List.forall₂_and_left _ _).mp (h.flip.imp fun _ _ hd => ⟨hd.1, hd⟩)).1

theorem IsNumeral.lt_base_pow_length (hs : IsNumeral base s n) (hbase : 1 < base) :
    n < base ^ s.length := by
  obtain ⟨-, ds, hds, rfl⟩ := hs
  rw [hds.length_eq, ← List.length_reverse]
  exact Nat.ofDigits_lt_base_pow_length hbase (by simpa using lt_base_of_forall₂ hds)

end Digits

section Radix

variable {s : Text} {n : Nat}

theorem radix_hex {mark : Text} (h : mark ∈ hexMarks) (digits : Text) :
    radix (mark ++ digits) = (16, digits) := by
  simp only [hexMarks, List.mem_cons, List.not_mem_nil, or_false] at h
  rcases h with rfl | rfl | rfl <;> rfl

theorem radix_octal {b : UInt8} (hx : b ≠ 'x'.toUInt8) (hX : b ≠ 'X'.toUInt8) (rest : Text) :
    radix ('0'.toUInt8 :: b :: rest) = (8, b :: rest) := by
  have hnone : ∀ c : UInt8, b ≠ c →
      after? ('0'.toUInt8 :: b :: rest) ['0'.toUInt8, c] = none := by
    intro c hc
    rw [Option.eq_none_iff_forall_ne_some]
    intro t ht
    exact hc (List.cons.inj (List.cons.inj (after?_eq_some_iff.mp ht)).2).1
  have hsmall : after? ('0'.toUInt8 :: b :: rest) "0x" = none := hnone _ hx
  have hcapital : after? ('0'.toUInt8 :: b :: rest) "0X" = none := hnone _ hX
  have hsharp : after? ('0'.toUInt8 :: b :: rest) "#" = none := rfl
  simp only [radix, hsmall, hcapital, hsharp]
  rfl

theorem radix_decimal {b : UInt8} (hzero : b ≠ '0'.toUInt8) (hsharp : b ≠ '#'.toUInt8)
    (rest : Text) : radix (b :: rest) = (10, b :: rest) := by
  have hnone : ∀ (c : UInt8) (mark : Text), b ≠ c → after? (b :: rest) (c :: mark) = none := by
    intro c mark hc
    rw [Option.eq_none_iff_forall_ne_some]
    intro t ht
    exact hc (List.cons.inj (after?_eq_some_iff.mp ht)).1
  have hsmall : after? (b :: rest) "0x" = none := hnone _ _ hzero
  have hcapital : after? (b :: rest) "0X" = none := hnone _ _ hzero
  have hmark : after? (b :: rest) "#" = none := hnone _ _ hsharp
  cases rest with
  | nil => simp only [radix, hsmall, hcapital, hmark]
  | cons c rest =>
    simp only [radix, hsmall, hcapital, hmark, beq_eq_false_iff_ne.mpr hzero]
    rfl

/-- The mark or the first digit tells the base. -/
theorem isMagnitude_of_natural?_radix (h : natural? (radix s).1 (radix s).2 = some n) :
    IsMagnitude s n := by
  rcases s with _ | ⟨b, rest⟩
  · cases h
  · by_cases hzero : b = '0'.toUInt8
    · subst hzero
      rcases rest with _ | ⟨c, rest⟩
      · obtain rfl : 0 = n := Option.some.inj h
        exact .zero
      · by_cases hx : c = 'x'.toUInt8
        · subst hx
          have hmark : Text.utf8 "0x" ∈ hexMarks := by decide
          exact .hex hmark ((natural?_eq_some_iff (Nat.le_refl _)).mp h)
        · by_cases hX : c = 'X'.toUInt8
          · subst hX
            have hmark : Text.utf8 "0X" ∈ hexMarks := by decide
            exact .hex hmark ((natural?_eq_some_iff (Nat.le_refl _)).mp h)
          · rw [radix_octal hx hX] at h
            exact .octal ((natural?_eq_some_iff (by norm_num)).mp h)
    · by_cases hsharp : b = '#'.toUInt8
      · subst hsharp
        have hmark : Text.utf8 "#" ∈ hexMarks := by decide
        exact .hex hmark ((natural?_eq_some_iff (Nat.le_refl _)).mp h)
      · rw [radix_decimal hzero hsharp] at h
        exact .decimal ((natural?_eq_some_iff (by norm_num)).mp h) (by simpa using hzero)

theorem IsMagnitude.natural?_radix (h : IsMagnitude s n) :
    natural? (radix s).1 (radix s).2 = some n := by
  cases h with
  | hex hmark h =>
    rw [radix_hex hmark]
    exact (natural?_eq_some_iff (Nat.le_refl _)).mpr h
  | octal h =>
    obtain ⟨b, rest, rfl⟩ := List.exists_cons_of_ne_nil h.1
    obtain ⟨hx, hX⟩ := h.forall_mem (P := fun b => b ≠ 'x'.toUInt8 ∧ b ≠ 'X'.toUInt8)
      (by decide +kernel) b List.mem_cons_self
    rw [radix_octal hx hX]
    exact (natural?_eq_some_iff (by norm_num)).mpr h
  | zero => rfl
  | decimal h hfirst =>
    obtain ⟨b, rest, rfl⟩ := List.exists_cons_of_ne_nil h.1
    have hsharp := h.forall_mem (P := (· ≠ '#'.toUInt8)) (by decide +kernel) b List.mem_cons_self
    rw [radix_decimal (by simpa using hfirst) hsharp]
    exact (natural?_eq_some_iff (by norm_num)).mpr h

def magnitudeBytes : Text := "0123456789abcdefABCDEFxX#"

theorem IsMagnitude.forall_mem (hs : IsMagnitude s n) {P : UInt8 → Prop}
    (h : ∀ b ∈ magnitudeBytes, P b) : ∀ b ∈ s, P b := by
  have hmarks : ∀ mark ∈ hexMarks, mark ⊆ magnitudeBytes := by decide
  have hdigits : ∀ base ∈ [8, 10, 16], digitsBelow base ⊆ magnitudeBytes := by decide
  cases hs with
  | hex hmark hn =>
    exact List.forall_mem_append.mpr ⟨fun b hb => h b (hmarks _ hmark hb),
      hn.forall_mem fun b hb => h b (hdigits 16 (by decide) hb)⟩
  | octal hn =>
    exact List.forall_mem_cons.mpr ⟨h _ (by decide),
      hn.forall_mem fun b hb => h b (hdigits 8 (by decide) hb)⟩
  | zero => exact List.forall_mem_singleton.mpr (h _ (by decide))
  | decimal hn _ => exact hn.forall_mem fun b hb => h b (hdigits 10 (by decide) hb)

end Radix

section Number

variable {s : Text} {n : Int}

theorem sign_unsigned {b : UInt8} (hminus : b ≠ '-'.toUInt8) (hplus : b ≠ '+'.toUInt8)
    (rest : Text) : sign (b :: rest) = (false, b :: rest) := by
  rw [sign, if_neg (by simpa using hminus), if_neg (by simpa using hplus)]

/-- The number that a text spells, whatever its size. -/
def number? (s : Text) : Option Int :=
  (natural? (radix (sign s).2).1 (radix (sign s).2).2).map (signed (sign s).1)

theorem isNumber_of_number? (h : number? s = some n) : IsNumber s n := by
  obtain ⟨m, hm, rfl⟩ := Option.map_eq_some_iff.mp h
  have hm := isMagnitude_of_natural?_radix hm
  rcases s with _ | ⟨b, rest⟩
  · exact .unsigned hm
  · by_cases hminus : b = '-'.toUInt8
    · subst hminus
      exact .minus hm
    · by_cases hplus : b = '+'.toUInt8
      · subst hplus
        exact .plus hm
      · rw [sign_unsigned hminus hplus] at hm ⊢
        exact .unsigned hm

theorem IsNumber.number? (h : IsNumber s n) : number? s = some n := by
  have hsign : ∀ {s t : Text} {negative : Bool} {m : Nat}, sign s = (negative, t) →
      IsMagnitude t m → Literal.number? s = some (signed negative m) := by
    intro s t negative m hs hm
    rw [Literal.number?, hs, hm.natural?_radix, Option.map_some]
  cases h with
  | unsigned h =>
    rcases s with _ | ⟨b, rest⟩
    · cases h.natural?_radix
    · obtain ⟨hminus, hplus⟩ := h.forall_mem (P := fun b => b ≠ '-'.toUInt8 ∧ b ≠ '+'.toUInt8)
        (by decide +kernel) b List.mem_cons_self
      exact hsign (sign_unsigned hminus hplus rest) h
  | plus h => exact hsign rfl h
  | minus h => exact hsign rfl h

theorem number?_eq_some_iff : number? s = some n ↔ IsNumber s n :=
  ⟨isNumber_of_number?, IsNumber.number?⟩

theorem short_eq (s : Text) :
    short s =
      match number? s with
      | none => .error (.malformed s)
      | some n =>
        if 0x7FFFFFFF < n.natAbs then .error (.malformed s)
        else if -0x8000 ≤ n ∧ n ≤ 0x7FFF then .ok n
        else .error (.tooWide s) := by
  have habs : ∀ (negative : Bool) (m : Nat), (signed negative m).natAbs = m := by
    rintro (_ | _) m <;> simp [signed]
  simp only [short, number?]
  cases natural? (radix (sign s).2).1 (radix (sign s).2).2 with
  | none => rfl
  | some m => simp only [Option.map_some, habs, isShort, Bool.and_eq_true, decide_eq_true_eq]

theorem short_eq_ok_iff : short s = .ok n ↔ IsNumber s n ∧ -0x8000 ≤ n ∧ n ≤ 0x7FFF := by
  rw [short_eq, ← number?_eq_some_iff]
  cases number? s with
  | none => simp
  | some m =>
    simp only [Option.some.injEq]
    constructor
    · intro h
      split_ifs at h with hwide hrange
      obtain rfl := Except.ok.inj h
      exact ⟨rfl, hrange⟩
    · rintro ⟨rfl, hrange⟩
      rw [if_neg (by omega), if_pos hrange]

theorem short_eq_error_iff :
    (∃ e, short s = .error e) ↔ ∀ n, IsNumber s n → n < -0x8000 ∨ 0x7FFF < n := by
  constructor
  · rintro ⟨e, he⟩ n hn
    by_contra hrange
    have hok : short s = .ok n := short_eq_ok_iff.mpr ⟨hn, by omega⟩
    cases he.symm.trans hok
  · intro h
    cases hs : short s with
    | error e => exact ⟨e, rfl⟩
    | ok n =>
      obtain ⟨hn, hrange⟩ := short_eq_ok_iff.mp hs
      have := h n hn
      omega

end Number

def signs : List Text := ["", "+", "-"]

/-- Texts that come near to a short and are none. -/
inductive IsBroken : Text → Prop
  | bare {sign mark : Text} (hsign : sign ∈ signs) (hmark : mark ∈ [] :: hexMarks) :
    IsBroken (sign ++ mark)
  | signAgain {front : Text} (hfront : front ≠ []) {b : UInt8}
    (hb : b = '+'.toUInt8 ∨ b = '-'.toUInt8) (rest : Text) : IsBroken (front ++ b :: rest)
  | underscore {s : Text} (h : '_'.toUInt8 ∈ s) : IsBroken s
  | notOctal {sign digits : Text} (hsign : sign ∈ signs)
    (hdecimal : ∀ b ∈ digits, b ∈ utf8 "0123456789")
    (h : '8'.toUInt8 ∈ digits ∨ '9'.toUInt8 ∈ digits) : IsBroken (sign ++ '0'.toUInt8 :: digits)

section Broken

variable {s : Text} {n : Int}

theorem IsNumber.exists_magnitude (h : IsNumber s n) : ∃ m, IsMagnitude (sign s).2 m := by
  obtain ⟨m, hm, -⟩ := Option.map_eq_some_iff.mp h.number?
  exact ⟨m, isMagnitude_of_natural?_radix hm⟩

theorem tail_subset_sign (s : Text) : s.tail ⊆ (sign s).2 := by
  rcases s with _ | ⟨c, rest⟩
  · exact List.Subset.refl _
  · simp only [sign, List.tail_cons]
    split_ifs
    · exact List.Subset.refl _
    · exact List.Subset.refl _
    · exact List.subset_cons_self c rest

theorem mem_sign {b : UInt8} (hminus : b ≠ '-'.toUInt8) (hplus : b ≠ '+'.toUInt8) (h : b ∈ s) :
    b ∈ (sign s).2 := by
  rcases s with _ | ⟨c, rest⟩
  · exact h
  · rcases List.mem_cons.mp h with rfl | h
    · rw [sign_unsigned hminus hplus]
      exact List.mem_cons_self
    · exact tail_subset_sign _ h

theorem not_isMagnitude_of_notOctal {digits : Text} {m : Nat}
    (hdecimal : ∀ b ∈ digits, b ∈ utf8 "0123456789")
    (h : '8'.toUInt8 ∈ digits ∨ '9'.toUInt8 ∈ digits) :
    ¬ IsMagnitude ('0'.toUInt8 :: digits) m := by
  intro hm
  have hletters : ∀ b ∈ utf8 "0123456789", b ≠ 'x'.toUInt8 ∧ b ≠ 'X'.toUInt8 := by decide +kernel
  have hoctal : ∀ b ∈ digitsBelow 8, b ≠ '8'.toUInt8 ∧ b ≠ '9'.toUInt8 := by decide +kernel
  rcases digits with _ | ⟨b, rest⟩
  · simp at h
  · obtain ⟨hx, hX⟩ := hletters b (hdecimal b List.mem_cons_self)
    have hvalue := hm.natural?_radix
    rw [radix_octal hx hX] at hvalue
    have hnumeral := (natural?_eq_some_iff (by norm_num)).mp hvalue
    rcases h with h | h
    · exact (hnumeral.forall_mem hoctal _ h).1 rfl
    · exact (hnumeral.forall_mem hoctal _ h).2 rfl

theorem IsBroken.not_isNumber (h : IsBroken s) : ¬ IsNumber s n := by
  intro hn
  obtain ⟨m, hm⟩ := hn.exists_magnitude
  cases h with
  | bare hsign hmark =>
    have hbare : ∀ sign ∈ signs, ∀ mark ∈ [] :: hexMarks,
        Literal.number? (sign ++ mark) = none := by
      decide
    cases (hbare _ hsign _ hmark).symm.trans hn.number?
  | @signAgain front hfront b hb rest =>
    have hunsigned : ∀ b ∈ magnitudeBytes, ¬ (b = '+'.toUInt8 ∨ b = '-'.toUInt8) := by
      decide +kernel
    obtain ⟨c, front, rfl⟩ := List.exists_cons_of_ne_nil hfront
    have hmem : b ∈ (c :: front ++ b :: rest).tail := by simp
    exact hm.forall_mem hunsigned b (tail_subset_sign _ hmem) hb
  | underscore h =>
    have hno : ∀ b ∈ magnitudeBytes, b ≠ '_'.toUInt8 := by decide +kernel
    exact hm.forall_mem hno _ (mem_sign (by decide) (by decide) h) rfl
  | @notOctal sign digits hsign hdecimal h =>
    have hrest : (Literal.sign (sign ++ '0'.toUInt8 :: digits)).2 = '0'.toUInt8 :: digits := by
      simp only [signs, List.mem_cons, List.not_mem_nil, or_false] at hsign
      rcases hsign with rfl | rfl | rfl <;> rfl
    rw [hrest] at hm
    exact not_isMagnitude_of_notOctal hdecimal h hm

end Broken

/-- Reading a short accepts exactly the numbers of the grammar that fit in 16 bits, and gives the
number that the digits spell. Everything else is an error, of whatever size its number is. -/
theorem short_reads_exactly_the_grammar (s : Text) :
    (∀ n, short s = .ok n ↔ IsNumber s n ∧ -0x8000 ≤ n ∧ n ≤ 0x7FFF) ∧
    (∀ m n, IsNumber s m → IsNumber s n → m = n) ∧
    ((∃ e, short s = .error e) ↔ ∀ n, IsNumber s n → n < -0x8000 ∨ 0x7FFF < n) ∧
    (IsBroken s → ∃ e, short s = .error e) := by
  refine ⟨fun n => short_eq_ok_iff, fun m n hm hn => ?_, short_eq_error_iff, fun h => ?_⟩
  · exact Option.some.inj (hm.number?.symm.trans hn.number?)
  · exact short_eq_error_iff.mpr fun n hn => absurd hn h.not_isNumber

end Literal

end B100
