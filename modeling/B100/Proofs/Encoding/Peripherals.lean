import B100.Proofs.Encoding.RegisterPairs
import B100.Proofs.Encoding.SettingKeys
import B100.Proofs.Encoding.Tokens
import B100.Proofs.Literal.Index

/-! # Commands to peripherals

Executing takes a peripheral in one or two digits or by a key of a section; the transfers take a
peripheral and a register with a comma between them. All of them look at the peripheral first.
-/

namespace B100

open Encoder Operand Text Literal

def BeforeComma (s a : Text) : Prop :=
  ','.toUInt8 ∉ a ∧ (s = a ∨ ∃ b, s = a ++ ','.toUInt8 :: b)

inductive IsExecuteOperand : Text → Prop
  | digits {s : Text} {n : Nat} (h : IsNumeral 10 s n) (hlen : s.length ≤ 2) : IsExecuteOperand s
  | key {s : Text} (h : IsSectionKey s) : IsExecuteOperand s

/-- The number of an execution's peripheral, as it is written or by the settings. -/
inductive Executes (layer : Layer) : Text → Int → Prop
  | digits {s : Text} {n : Nat} (h : IsNumeral 10 s n) (hlen : s.length ≤ 2) : Executes layer s n
  | key {s value : Text} {n : Int} (h : IsSectionKey s) (hvalue : layer.lookup s = some value)
    (hn : Literal.short value.trim = .ok n) : Executes layer s n

/-- The bit that tells setting a register from getting it. -/
def Transfer.flag : Transfer → Word
  | set => 1
  | get => 0

theorem Transfer.io_mnemonic (t : Transfer) :
    InstructionSet.standard.io[t.mnemonic]? = some t.flag := by
  cases t <;> decide

section Spelling

variable {s : Text}

theorem exists_isNumeral_of_isDigit (hne : s ≠ []) (h : ∀ b ∈ s, isDigit b = true) :
    ∃ n, IsNumeral 10 s n := by
  have hdigit : ∀ b : UInt8, isDigit b = true → IsDigit 10 b (b.toNat - '0'.toNat) := by
    intro b hb
    rw [← digitIn?_eq_some_iff (by norm_num)]
    exact forall_byte (P := fun b => isDigit b = true → digitIn? 10 b = some (b.toNat - '0'.toNat))
      (by decide +kernel) b hb
  refine ⟨_, hne, s.map fun b => b.toNat - '0'.toNat, ?_, rfl⟩
  rw [List.forall₂_map_right_iff, List.forall₂_same]
  exact fun b hb => hdigit b (h b hb)

theorem isOneOrTwoDigits_iff :
    isOneOrTwoDigits s = true ↔ ∃ n, IsNumeral 10 s n ∧ s.length ≤ 2 := by
  constructor
  · intro h
    simp only [isOneOrTwoDigits, Bool.and_eq_true, decide_eq_true_eq, List.all_eq_true] at h
    obtain ⟨n, hn⟩ := exists_isNumeral_of_isDigit (List.length_pos_iff.mp h.1.1) h.2
    exact ⟨n, hn, h.1.2⟩
  · rintro ⟨n, hn, hlen⟩
    exact isOneOrTwoDigits_of_isNumeral hn hlen

theorem isSectionKey_iff : isSectionKey s = true ↔ IsSectionKey s := by
  constructor
  · intro h
    unfold isSectionKey at h
    split at h
    · cases h
    · next rest hrest =>
      split at h
      · next a b hsplit =>
        obtain ⟨ha, hb⟩ : isWord a = true ∧ isWord b = true := by simpa using h
        have hjoin : rest = a ++ '.'.toUInt8 :: b := by
          calc rest = ['.'.toUInt8].intercalate (rest.splitOn '.'.toUInt8) :=
                (List.intercalate_splitOn _).symm
            _ = a ++ '.'.toUInt8 :: b := by simp [hsplit, List.intercalate]
        refine ⟨a, b, ha, hb, ?_⟩
        rw [after?_eq_some_iff.mp hrest, hjoin, List.append_assoc]
      · cases h
  · exact IsSectionKey.isSectionKey_eq_true

theorem isExecuteOperand_iff :
    (isOneOrTwoDigits s || isSectionKey s) = true ↔ IsExecuteOperand s := by
  rw [Bool.or_eq_true, isOneOrTwoDigits_iff, isSectionKey_iff]
  constructor
  · rintro (⟨n, h, hlen⟩ | h)
    · exact .digits h hlen
    · exact .key h
  · intro h
    cases h with
    | digits h hlen => exact .inl ⟨_, h, hlen⟩
    | key h => exact .inr h

theorem visible_of_isWord (h : isWord s = true) : s.Visible := by
  simp only [isWord, Bool.and_eq_true, Bool.not_eq_true', List.isEmpty_eq_false_iff,
    List.all_eq_true] at h
  exact ⟨h.1, fun b hb => forall_byte (P := fun b => isWordByte b = true → 0x20 < b ∧ b < 0x7F)
    (by decide +kernel) b (h.2 b hb)⟩

theorem IsSectionKey.isKey (h : IsSectionKey s) : IsKey s := by
  obtain ⟨a, b, ha, hb, rfl⟩ := h
  have hconf : Visible "$conf." := by decide
  have hdot : Visible "." := by decide
  have hcomma : isWordByte ','.toUInt8 = false := by decide
  refine ⟨?_, ?_, ?_⟩
  · rw [List.append_assoc]
    exact List.prefix_append _ _
  · exact ((hconf.append (visible_of_isWord ha)).append
      (hdot.append (visible_of_isWord hb))).unbroken
  · simp only [List.mem_append, List.mem_cons, not_or]
    exact ⟨⟨by decide, notMem_of_isWord ha hcomma⟩, by decide, notMem_of_isWord hb hcomma⟩

end Spelling

section Tokens

variable {operands a : Text}

theorem exists_beforeComma (s : Text) : ∃ a, BeforeComma s a := by
  by_cases h : ','.toUInt8 ∈ s
  · obtain ⟨a, b, rfl, ha⟩ := List.eq_append_cons_of_mem h
    exact ⟨a, ha, .inr ⟨b, rfl⟩⟩
  · exact ⟨s, h, .inl rfl⟩

theorem iff_exists_beforeComma {P : Text → Prop} {Q : Prop}
    (h : ∀ a, BeforeComma operands.trim a → (Q ↔ P a)) :
    Q ↔ ∃ a, BeforeComma operands.trim a ∧ P a := by
  constructor
  · intro hq
    obtain ⟨a, ha⟩ := exists_beforeComma operands.trim
    exact ⟨a, ha, (h a ha).mp hq⟩
  · rintro ⟨a, ha, hp⟩
    exact (h a ha).mpr hp

variable (h : BeforeComma operands.trim a)

include h

theorem firstToken_eq : firstToken operands = a.trim.lower := by
  obtain ⟨ha, hs | ⟨b, hs⟩⟩ := h
  · rw [firstToken, hs, cut_beq_of_notMem ha]
  · rw [firstToken, hs, cut_beq_append_cons ha]

theorem secondToken?_eq_none_iff : secondToken? operands = none ↔ operands.trim = a := by
  obtain ⟨ha, hs | ⟨b, hs⟩⟩ := h
  · simp [secondToken?, hs, cut_beq_of_notMem ha]
  · simp [secondToken?, hs, cut_beq_append_cons ha]

theorem exists_secondToken_iff {P : Text → Prop} :
    (∃ token, secondToken? operands = some token ∧ P token) ↔
      ∃ b : Text, operands.trim = a ++ ','.toUInt8 :: b ∧ P b.trim.lower := by
  obtain ⟨ha, hs | ⟨b, hs⟩⟩ := h
  · simp [secondToken?, hs, cut_beq_of_notMem ha]
  · simp [secondToken?, hs, cut_beq_append_cons ha]

end Tokens

namespace Encoding

variable {e : Encoding} {resolve : Text → Option Text} {m operands : Text} {code w : Word}
  {f : Fault}

theorem result_execute_eq_ok_iff (hcode : e.isa.io[utf8 "ioex"]? = some code) :
    result resolve (e.peripheral "ioex" operands) = .ok w ↔
      ∃ n, Admits resolve 7 (firstToken operands) n ∧ IsExecuteOperand operands.trim ∧
        w = e.isa.tag .io ||| Word.ofInt n <<< 8 ||| code := by
  simp only [peripheral, hcode, result_bounded_eq_ok_iff, if_true, result_ite, result_pure,
    result_throw]
  refine exists_congr fun n => and_congr Iff.rfl ?_
  rw [← isExecuteOperand_iff]
  split
  · next h => simp [h, eq_comm]
  · next h => simp [h]

theorem result_execute_eq_error_iff (hcode : e.isa.io[utf8 "ioex"]? = some code) :
    result resolve (e.peripheral "ioex" operands) = .error f ↔
      Rejects resolve 7 .peripheral (firstToken operands) f ∨
        (∃ n, Admits resolve 7 (firstToken operands) n) ∧ ¬ IsExecuteOperand operands.trim ∧
          f = .executeOperands operands.trim := by
  simp only [peripheral, hcode, result_bounded_eq_error_iff, if_true, result_ite, result_pure,
    result_throw]
  refine or_congr Iff.rfl ?_
  rw [← exists_and_right]
  refine exists_congr fun n => and_congr Iff.rfl ?_
  rw [← isExecuteOperand_iff]
  split
  · next h => simp [h]
  · next h => simp [h, eq_comm]

theorem result_transfer_eq_ok_iff (hcode : e.isa.io[m]? = some code) (hm : m ≠ "ioex") :
    result resolve (e.peripheral m operands) = .ok w ↔
      ∃ n, Admits resolve 7 (firstToken operands) n ∧
        ∃ token, secondToken? operands = some token ∧ ∃ r, Admits resolve 15 token r ∧
          w = e.isa.tag .io ||| Word.ofInt n <<< 8 ||| Word.ofInt r <<< 4 ||| code := by
  simp only [peripheral, hcode, result_bounded_eq_ok_iff, if_neg hm]
  refine exists_congr fun n => and_congr Iff.rfl ?_
  unfold secondToken?
  cases (operands.trim.cut (· == ','.toUInt8)).2 with
  | none => simp
  | some rest =>
    simp only [result_bounded_eq_ok_iff, result_pure, Except.ok.injEq, Option.map_some,
      Option.some_inj, exists_eq_left']
    exact exists_congr fun r => and_congr Iff.rfl eq_comm

theorem result_transfer_eq_error_iff (hcode : e.isa.io[m]? = some code) (hm : m ≠ "ioex") :
    result resolve (e.peripheral m operands) = .error f ↔
      Rejects resolve 7 .peripheral (firstToken operands) f ∨
        (∃ n, Admits resolve 7 (firstToken operands) n) ∧
          (secondToken? operands = none ∧ f = .peripheralOperands m ∨
            ∃ token, secondToken? operands = some token ∧
              Rejects resolve 15 .peripheralRegister token f) := by
  simp only [peripheral, hcode, result_bounded_eq_error_iff, if_neg hm]
  refine or_congr Iff.rfl ?_
  rw [← exists_and_right]
  refine exists_congr fun n => and_congr Iff.rfl ?_
  unfold secondToken?
  cases (operands.trim.cut (· == ','.toUInt8)).2 with
  | none => simp [eq_comm]
  | some rest =>
    simp only [result_bounded_eq_error_iff, result_pure, reduceCtorEq, and_false, exists_false,
      or_false, false_and, false_or, Option.map_some, Option.some_inj, exists_eq_left']

end Encoding

section Execute

variable {resolve : Text → Option Text} {operands : Text} {n : Int} {k : Nat}

theorem resolves_of_eq_ok {read : Text → Except LiteralError Int} {token : Text} {m : Int}
    (h : read token = .ok m) : Resolves read resolve token n ↔ n = m := by
  simp [Resolves, h, eq_comm]

theorem resolves_digits_iff (h : IsNumeral 10 operands.trim k) (hlen : operands.trim.length ≤ 2) :
    Resolves Literal.index resolve (firstToken operands) n ↔ n = k := by
  have hcomma : ','.toUInt8 ∉ operands.trim := fun hm => (bytes_of_isNumeral h _ hm).2.2 rfl
  have hascii : ∀ b ∈ operands.trim, b < 0x80 := h.forall_mem (by decide +kernel)
  have hlower : ∀ b ∈ operands.trim, (Glyph.ofByte b).lower = Glyph.ofByte b :=
    h.forall_mem (by decide +kernel)
  have hrange : k < 10 ^ 2 :=
    (h.lt_base_pow_length (by decide)).trans_le (Nat.pow_le_pow_right (by decide) hlen)
  rw [firstToken_eq ⟨hcomma, .inl rfl⟩, trim_trim, lower_eq_self hascii hlower]
  exact resolves_of_eq_ok (index_eq_ok_iff.mpr ⟨.inl (.decimal (.unsigned h)), by omega, by omega⟩)

theorem resolves_key_iff (layer : Layer) (h : IsSectionKey operands.trim) :
    Resolves Literal.index layer.lookup (firstToken operands) n ↔
      ∃ value, layer.lookup operands.trim = some value ∧ Literal.short value.trim = .ok n := by
  rw [firstToken_eq ⟨h.isKey.comma, .inl rfl⟩, trim_trim, ← outcome_index_eq_ok_iff,
    (layer.readsAs_key h.isKey).index, ← layer.outcome_setting, outcome_setting_eq_ok_iff]

theorem executes_iff (layer : Layer) : Executes layer operands.trim n ↔
    IsExecuteOperand operands.trim ∧
      Resolves Literal.index layer.lookup (firstToken operands) n := by
  constructor
  · intro h
    cases h with
    | digits h hlen => exact ⟨.digits h hlen, (resolves_digits_iff h hlen).mpr rfl⟩
    | key h hvalue hn => exact ⟨.key h, (resolves_key_iff layer h).mpr ⟨_, hvalue, hn⟩⟩
  · rintro ⟨h, hn⟩
    cases h with
    | digits h hlen =>
      obtain rfl := (resolves_digits_iff h hlen).mp hn
      exact .digits h hlen
    | key h =>
      obtain ⟨value, hvalue, hn⟩ := (resolves_key_iff layer h).mp hn
      exact .key h hvalue hn

end Execute

/-- Commands to a peripheral are encoded exactly if their operands are right, and otherwise fail for
the first that is wrong. The peripheral comes before everything else: before the spelling that
executing asks for, the comma of a transfer, and the register behind it. -/
theorem peripheral_commands_read_exactly_their_operands (layer : Layer) (labels : Labels)
    (operands : Text) :
    let e : Encoding := ⟨.standard, labels⟩
    (∀ w, result layer.lookup (e.peripheral "ioex" operands) = .ok w ↔
      ∃ p, Executes layer operands.trim p ∧ 0 ≤ p ∧ p ≤ 7 ∧
        w = (0x4800 : Word) ||| Word.ofInt p <<< 8) ∧
    (∀ (t : Transfer) (w : Word), result layer.lookup (e.peripheral t.mnemonic operands) = .ok w ↔
      ∃ (a b : Text) (p r : Int), operands.trim = a ++ ','.toUInt8 :: b ∧ ','.toUInt8 ∉ a ∧
        Admits layer.lookup 7 a.trim.lower p ∧ Admits layer.lookup 15 b.trim.lower r ∧
        w = (0x4000 : Word) ||| Word.ofInt p <<< 8 ||| Word.ofInt r <<< 4 ||| t.flag) ∧
    (∀ f, result layer.lookup (e.peripheral "ioex" operands) = .error f ↔
      ∃ a, BeforeComma operands.trim a ∧ (Rejects layer.lookup 7 .peripheral a.trim.lower f ∨
        (∃ p, Admits layer.lookup 7 a.trim.lower p) ∧ ¬ IsExecuteOperand operands.trim ∧
          f = .executeOperands operands.trim)) ∧
    (∀ (t : Transfer) (f : Fault),
      result layer.lookup (e.peripheral t.mnemonic operands) = .error f ↔
      ∃ a, BeforeComma operands.trim a ∧ (Rejects layer.lookup 7 .peripheral a.trim.lower f ∨
        (∃ p, Admits layer.lookup 7 a.trim.lower p) ∧
          (operands.trim = a ∧ f = .peripheralOperands t.mnemonic ∨
            ∃ b : Text, operands.trim = a ++ ','.toUInt8 :: b ∧
              Rejects layer.lookup 15 .peripheralRegister b.trim.lower f))) := by
  intro e
  have hcode : InstructionSet.standard.io[utf8 "ioex"]? = some 0x0800 := by decide
  refine ⟨fun w => ?_, fun t w => ?_, fun f => ?_, fun t f => ?_⟩
  · have hword : ∀ p : Word, (0x4000 : Word) ||| p ||| 0x0800 = 0x4800 ||| p := by
      intro p
      rw [UInt16.or_assoc, UInt16.or_comm p, ← UInt16.or_assoc]
      rfl
    rw [Encoding.result_execute_eq_ok_iff hcode]
    constructor
    · rintro ⟨p, ⟨hp, h₀, h₁⟩, hform, rfl⟩
      exact ⟨p, (executes_iff layer).mpr ⟨hform, hp⟩, h₀, h₁, hword _⟩
    · rintro ⟨p, hp, h₀, h₁, rfl⟩
      obtain ⟨hform, hp⟩ := (executes_iff layer).mp hp
      exact ⟨p, ⟨hp, h₀, h₁⟩, hform, (hword _).symm⟩
  · rw [Encoding.result_transfer_eq_ok_iff t.io_mnemonic t.mnemonic_ne]
    constructor
    · rintro ⟨p, hp, hrest⟩
      obtain ⟨a, ha⟩ := exists_beforeComma operands.trim
      obtain ⟨b, hs, r, hr, rfl⟩ := (exists_secondToken_iff ha).mp hrest
      exact ⟨a, b, p, r, hs, ha.1, firstToken_eq ha ▸ hp, hr, rfl⟩
    · rintro ⟨a, b, p, r, hs, hcomma, hp, hr, rfl⟩
      have ha : BeforeComma operands.trim a := ⟨hcomma, .inr ⟨b, hs⟩⟩
      exact ⟨p, (firstToken_eq ha).symm ▸ hp,
        (exists_secondToken_iff ha).mpr ⟨b, hs, r, hr, rfl⟩⟩
  · rw [Encoding.result_execute_eq_error_iff hcode]
    exact iff_exists_beforeComma fun a ha => by rw [firstToken_eq ha]
  · rw [Encoding.result_transfer_eq_error_iff t.io_mnemonic t.mnemonic_ne]
    refine iff_exists_beforeComma fun a ha => ?_
    rw [firstToken_eq ha, secondToken?_eq_none_iff ha, exists_secondToken_iff ha]

end B100
