import B100.Proofs.Encoding.Resolution
import B100.Proofs.Encoding.Statement
import B100.Proofs.Literal.LowerCase
import B100.Proofs.Text.LetterCase
import B100.Proofs.Text.Numeral

/-! # Keys of settings

A key of the settings stands for the number it is bound to. Numerals and settings are read by
different rules, which also differ from operand to operand, but wherever a number may stand, a key
and the numeral of its number come to the same word or to a fault of the same kind.
-/

namespace B100

open Text Encoder

structure IsKey (key : Text) : Prop where
  conf : ("$conf." : Text) <+: key
  unbroken : key.Unbroken
  comma : ','.toUInt8 ∉ key

/-- A key with its letters in any case. -/
structure IsCasedKey (key : Text) : Prop where
  conf : ("$conf." : Text) <+: key.map lowerByte
  unbroken : key.Unbroken
  comma : ','.toUInt8 ∉ key

namespace IsCasedKey

variable {key : Text}

theorem exists_lower (h : IsCasedKey key) : ∃ s : Text, key.lower = "$conf." ++ s := by
  have hvisible : Visible "$conf." := by decide
  have hconf : ("$conf." : Text).lower = "$conf." := by decide
  obtain ⟨s, hs⟩ := h.conf
  refine ⟨lower s, ?_⟩
  rw [← lower_map_lowerByte, ← hs, lower_append_ascii hvisible.ascii, hconf]

theorem short_eq_error (h : IsCasedKey key) : ∃ e, Literal.short key = .error e := by
  cases hshort : Literal.short key with
  | error e => exact ⟨e, rfl⟩
  | ok n =>
    have hdollar : '$'.toUInt8 ∈ key := by
      obtain ⟨b, hb, hlower⟩ := List.mem_map.mp (h.conf.subset List.mem_cons_self)
      obtain rfl : b = '$'.toUInt8 := (lowerByte_eq_iff (by decide)).mp hlower
      exact hb
    have hnumber := (Literal.short_eq_ok_iff.mp hshort).1
    exact absurd (hnumber.mem_numberBytes _ hdollar) (by decide)

theorem after?_label (h : IsCasedKey key) : key.after? "$lbl." = none := by
  rw [Option.eq_none_iff_forall_ne_some]
  intro name hname
  obtain ⟨s, hs⟩ := h.conf
  rw [after?_eq_some_iff.mp hname] at hs
  exact absurd (List.cons.inj (List.cons.inj hs).2).1 (by decide)

end IsCasedKey

theorem IsKey.isCasedKey {key : Text} (h : IsKey key) : IsCasedKey key where
  conf := by
    have hconf : List.map lowerByte "$conf." = utf8 "$conf." := by decide
    obtain ⟨s, rfl⟩ := h.conf
    rw [List.map_append, hconf]
    exact List.prefix_append _ _
  unbroken := h.unbroken
  comma := h.comma

def IsSectionKey (key : Text) : Prop := ∃ a b : Text,
  Operand.isWord a = true ∧ Operand.isWord b = true ∧ key = "$conf." ++ a ++ '.'.toUInt8 :: b

def Layer.number (layer : Layer) (key : Text) : Except Kind Int :=
  match layer.lookup key with
  | none => .error .invalidOperand
  | some value => (Literal.short value.trim).mapError fun _ => .invalidOperand

/-- A text is read as a number, or refused, by all the rules for numbers alike. -/
structure ReadsAs (resolve : Text → Option Text) (t : Text) (x : Except Kind Int) : Prop where
  nonempty : t ≠ []
  unbroken : t.Unbroken
  comma : ','.toUInt8 ∉ t
  push : ∀ e : Encoding, outcome resolve (e.pushValue t) =
    x.bind fun n => if n < 0 then .error .negativeOperand else .ok n
  short : outcome resolve (Operand.short t.lower) = x
  index : outcome resolve (Operand.index t.lower) = x

theorem readsAs_ofInt (resolve : Text → Option Text) {v : Int} (h₀ : -0x8000 ≤ v)
    (h₁ : v ≤ 0x7FFF) : ReadsAs resolve (ofInt v) (.ok v) where
  nonempty := (visible_ofInt v).nonempty
  unbroken := (visible_ofInt v).unbroken
  comma h := forall_mem_ofInt (P := (· ≠ ','.toUInt8)) (by decide) (by decide) v _ h rfl
  push e := by
    simp only [Encoding.pushValue, Literal.short_ofInt h₀ h₁, outcome_ite]
    rfl
  short := by
    simp only [Operand.short, lower_ofInt, Literal.short_ofInt h₀ h₁]
    rfl
  index := by
    simp only [Operand.index, lower_ofInt, Literal.index_ofInt h₀ h₁]
    rfl

namespace Layer

variable (layer : Layer)

theorem outcome_setting (key : Text) :
    outcome layer.lookup (Operand.setting key) = layer.number key := by
  rw [outcome, Operand.result_setting, number]
  cases layer.lookup key with
  | none => rfl
  | some value =>
    dsimp only
    cases Literal.short value.trim <;> rfl

theorem number_of_lookup {key value : Text} (h : layer.lookup key = some value) :
    layer.number key = (Literal.short value.trim).mapError fun _ => .invalidOperand := by
  rw [number, h]

theorem number_eq_error {key : Text}
    (h : ∀ value v, layer.lookup key = some value → Literal.short value.trim ≠ .ok v) :
    layer.number key = .error .invalidOperand := by
  cases hvalue : layer.lookup key with
  | none => rw [number, hvalue]
  | some value =>
    rw [layer.number_of_lookup hvalue]
    cases hv : Literal.short value.trim with
    | error e => rfl
    | ok v => cases h value v hvalue hv

theorem number_lower (key : Text) : layer.number key.lower = layer.number key := by
  rw [number, lookup_lower, ← number]

/-- A key is no literal and no label, so nothing but the settings gives it a number. -/
theorem readsAs_casedKey {key : Text} (h : IsCasedKey key) :
    ReadsAs layer.lookup key (layer.number key) := by
  obtain ⟨u, hlower⟩ := h.exists_lower
  have hnumber : outcome layer.lookup (Operand.setting ("$conf." ++ u)) = layer.number key := by
    rw [outcome_setting, ← hlower, number_lower]
  refine ⟨?_, h.unbroken, h.comma, fun e => ?_, ?_, ?_⟩
  · rintro rfl
    cases hlower
  · obtain ⟨error, hshort⟩ := h.short_eq_error
    simp only [Encoding.pushValue, hshort, h.after?_label, outcome_bind, outcome_setting,
      outcome_ite]
    rfl
  -- In lower case the first bytes show that a key is no literal.
  · rw [hlower]
    exact hnumber
  · rw [hlower]
    exact hnumber

theorem readsAs_key {key : Text} (h : IsKey key) : ReadsAs layer.lookup key (layer.number key) :=
  layer.readsAs_casedKey h.isCasedKey

end Layer

inductive Transfer where
  | set
  | get
  deriving DecidableEq, Repr

namespace Transfer

def mnemonic : Transfer → Text
  | set => "iosr"
  | get => "iogr"

theorem mnemonic_ne (t : Transfer) : t.mnemonic ≠ "ioex" := by
  cases t <;> decide

theorem visible (t : Transfer) : t.mnemonic.Visible := by
  cases t <;> decide

theorem io (t : Transfer) : ("io" : Text).isPrefixOf t.mnemonic = true := by
  cases t <;> decide

end Transfer

inductive Slot where
  | push
  | system
  | execute
  | peripheral (t : Transfer) (register : Text)
  | register (t : Transfer) (peripheral : Text) (comma : ','.toUInt8 ∉ peripheral)

namespace Slot

def fill (s : Text) : Slot → Text
  | push => "push" ++ ' '.toUInt8 :: s
  | system => "sys" ++ ' '.toUInt8 :: ("cmd" ++ ' '.toUInt8 :: s)
  | execute => "ioex" ++ ' '.toUInt8 :: s
  | peripheral t r => t.mnemonic ++ ' '.toUInt8 :: (s ++ ','.toUInt8 :: r)
  | register t p _ => t.mnemonic ++ ' '.toUInt8 :: (p ++ ','.toUInt8 :: s)

def command? : Slot → Option Text
  | push | system => none
  | execute => some "ioex"
  | peripheral t _ | register t _ _ => some t.mnemonic

theorem command_mem_standard (slot : Slot) :
    ∀ m ∈ slot.command?, m ∈ InstructionSet.standard.io := by
  have hexecute : utf8 "ioex" ∈ InstructionSet.standard.io := by decide
  have htransfer : ∀ t : Transfer, t.mnemonic ∈ InstructionSet.standard.io := by
    rintro (_ | _) <;> decide
  intro m hm
  cases slot with
  | push => cases hm
  | system => cases hm
  | execute => exact Option.some.inj hm ▸ hexecute
  | peripheral t r => exact Option.some.inj hm ▸ htransfer t
  | register t p hp => exact Option.some.inj hm ▸ htransfer t

/-- The operands before the slot are fine. -/
def Ready (resolve : Text → Option Text) : Slot → Prop
  | register _ p _ => ∃ n, outcome resolve (Operand.index p.trim.lower) = .ok n ∧ 0 ≤ n ∧ n ≤ 7
  | _ => True

end Slot

namespace Encoding

variable (e : Encoding) (resolve : Text → Option Text)

def transfer (m : Text) (number register : Except Kind Int) : Except Kind Word :=
  match e.isa.io[m]? with
  | none => .error .unknownMnemonic
  | some code => number.bind fun n =>
    if n < 0 || 7 < n then .error .outOfRange
    else register.bind fun r =>
      if r < 0 || 15 < r then .error .outOfRange
      else .ok (e.isa.tag .io ||| Word.ofInt n <<< 8 ||| Word.ofInt r <<< 4 ||| code)

/-- The word of executing a peripheral, from what the operand is read as and whether it is spelled
as it has to be. -/
def executed (spelled : Bool) (x : Except Kind Int) : Except Kind Word :=
  match e.isa.io[utf8 "ioex"]? with
  | none => .error .unknownMnemonic
  | some code => x.bind fun n =>
    if n < 0 || 7 < n then .error .outOfRange
    else if spelled then .ok (e.isa.tag .io ||| Word.ofInt n <<< 8 ||| code)
    else .error .syntaxError

def completed (x : Except Kind Int) : Slot → Except Kind Word
  | .push => x.bind fun n =>
    if n < 0 then .error .negativeOperand else .ok (e.isa.tag .push ||| Word.ofInt n)
  | .system => x.bind fun n =>
    if n < 0 || 255 < n then .error .outOfRange
    else .ok (e.isa.tag .sys ||| e.isa.sysFlag ||| Word.ofInt n)
  | .execute => e.executed true x
  | .peripheral t r => e.transfer t.mnemonic x (outcome resolve (Operand.index r.trim.lower))
  | .register t p _ => e.transfer t.mnemonic (outcome resolve (Operand.index p.trim.lower)) x

theorem instruction_io {m : Text} (hm : m.Visible)
    (hio : ("io" : Text).isPrefixOf m = true) (operands : Text) :
    e.instruction (m ++ ' '.toUInt8 :: operands) = e.peripheral m operands := by
  rw [instruction, Statement.ofText_space hm, Statement.withOperands_io _ hio, statement]
  simp only [peripheral, trim_dropWhile_isSpaceOrTab]

theorem outcome_peripheral_pair {m p : Text} (hm : m ≠ "ioex") (hp : ','.toUInt8 ∉ p) (r : Text) :
    outcome resolve (e.peripheral m (p ++ ','.toUInt8 :: r)) =
      e.transfer m (outcome resolve (Operand.index p.trim.lower))
        (outcome resolve (Operand.index r.trim.lower)) := by
  have htrim := trim_append_cons (b := ','.toUInt8) (by decide) p r
  have hcut : (p.trimLeft ++ ','.toUInt8 :: r.trimRight).cut (· == ','.toUInt8) =
      (p.trimLeft, some r.trimRight) := by
    refine cut_append_cons (fun b hb => ?_) (by decide) _
    obtain ⟨lead, -, hlead⟩ := exists_isBlank_append_trimLeft p
    have hmem : b ∈ p := hlead ▸ List.mem_append_right lead hb
    simpa using ne_of_mem_of_not_mem hmem hp
  unfold peripheral transfer
  cases e.isa.io[m]? with
  | none => rfl
  | some code =>
    simp only [htrim, hcut, trim_trimLeft, trim_trimRight, if_neg hm, outcome_bind, outcome_ite]
    rfl

end Encoding

theorem Operand.notMem_of_isWord {s : Text} {b : UInt8} (h : isWord s = true)
    (hb : isWordByte b = false) : b ∉ s := by
  intro hmem
  simp only [isWord, Bool.and_eq_true, List.all_eq_true] at h
  rw [h.2 b hmem] at hb
  cases hb

theorem IsSectionKey.isSectionKey_eq_true {key : Text} (h : IsSectionKey key) :
    Operand.isSectionKey key = true := by
  obtain ⟨a, b, ha, hb, rfl⟩ := h
  have hdot : Operand.isWordByte '.'.toUInt8 = false := by decide
  have hsplit : (a ++ '.'.toUInt8 :: b).splitOn '.'.toUInt8 = [a, b] := by
    rw [List.splitOn_append_cons_self, List.splitOn_eq_singleton (Operand.notMem_of_isWord ha hdot),
      List.splitOn_eq_singleton (Operand.notMem_of_isWord hb hdot)]
    rfl
  simp only [Operand.isSectionKey, List.append_assoc, after?_append, hsplit, ha, hb, Bool.and_self]

/-- If its number is a peripheral, the text is spelled as executing asks. -/
def IsExecutable (s : Text) (x : Except Kind Int) : Prop := ∀ n, x = .ok n → 0 ≤ n → n ≤ 7 →
  (Operand.isOneOrTwoDigits s || Operand.isSectionKey s) = true

theorem isExecutable_ofInt (v : Int) : IsExecutable (ofInt v) (.ok v) := by
  rintro n hn h₀ h₁
  obtain rfl := Except.ok.inj hn
  lift v to Nat using h₀
  rw [ofInt_natCast, Operand.isOneOrTwoDigits_ofNat (by omega), Bool.true_or]

namespace ReadsAs

variable {resolve : Text → Option Text} {s : Text} {x : Except Kind Int}

theorem outcome_push (h : ReadsAs resolve s x) (e : Encoding) :
    outcome resolve (e.push s) = e.completed resolve x .push := by
  simp only [Encoding.push, h.unbroken.trim_eq_self, h.unbroken.any_isSpaceOrTab,
    Bool.false_eq_true, if_false, outcome_bind, h.push, Encoding.completed]
  cases x with
  | error k => rfl
  | ok n => by_cases hn : n < 0 <;> simp [Except.bind, hn]

theorem outcome_system (h : ReadsAs resolve s x) (e : Encoding) :
    outcome resolve (e.system ("cmd" ++ ' '.toUInt8 :: s)) = e.completed resolve x .system := by
  have hcmd : Visible "cmd" := by decide
  have hfields := hcmd.unbroken.fields_append_space hcmd.nonempty h.unbroken h.nonempty
  simp only [Encoding.system, hfields, ne_eq, not_true, if_false, outcome_bind, h.short,
    outcome_ite]
  rfl

theorem outcome_execute_eq (h : ReadsAs resolve s x) (e : Encoding) :
    outcome resolve (e.peripheral "ioex" s) =
      e.executed (Operand.isOneOrTwoDigits s || Operand.isSectionKey s) x := by
  have hcut : s.cut (· == ','.toUInt8) = (s, none) :=
    cut_of_forall fun b hb => by simpa using ne_of_mem_of_not_mem hb h.comma
  unfold Encoding.peripheral Encoding.executed
  cases e.isa.io[utf8 "ioex"]? with
  | none => rfl
  | some code =>
    simp only [h.unbroken.trim_eq_self, hcut, outcome_bind, h.index, outcome_ite]
    rfl

/-- The range of the number is checked before the spelling, so the spelling matters only within. -/
theorem outcome_execute (h : ReadsAs resolve s x) (hs : IsExecutable s x) (e : Encoding) :
    outcome resolve (e.peripheral "ioex" s) = e.completed resolve x .execute := by
  rw [h.outcome_execute_eq, Encoding.completed]
  unfold Encoding.executed
  cases e.isa.io[utf8 "ioex"]? with
  | none => rfl
  | some code =>
    cases x with
    | error k => rfl
    | ok n =>
      simp only [Except.bind]
      split
      · rfl
      · next hn =>
        have hrange : 0 ≤ n ∧ n ≤ 7 := by simpa using hn
        rw [if_pos (hs n rfl hrange.1 hrange.2), if_pos trivial]

theorem outcome_peripheral (h : ReadsAs resolve s x) (e : Encoding) (t : Transfer) (r : Text) :
    outcome resolve (e.peripheral t.mnemonic (s ++ ','.toUInt8 :: r)) =
      e.completed resolve x (.peripheral t r) := by
  rw [e.outcome_peripheral_pair resolve t.mnemonic_ne h.comma, h.unbroken.trim_eq_self, h.index]
  rfl

theorem outcome_register (h : ReadsAs resolve s x) (e : Encoding) (t : Transfer) {p : Text}
    (hp : ','.toUInt8 ∉ p) :
    outcome resolve (e.peripheral t.mnemonic (p ++ ','.toUInt8 :: s)) =
      e.completed resolve x (.register t p hp) := by
  rw [e.outcome_peripheral_pair resolve t.mnemonic_ne hp, h.unbroken.trim_eq_self, h.index]
  rfl

/-- An instruction depends on the text in its slot only through what the text is read as. -/
theorem outcome_instruction (h : ReadsAs resolve s x) {slot : Slot}
    (hs : slot = .execute → IsExecutable s x) (e : Encoding) :
    outcome resolve (e.instruction (slot.fill s)) = e.completed resolve x slot := by
  have hpush : Visible "push" := by decide
  have hsys : Visible "sys" := by decide
  cases slot with
  | push =>
    rw [Encoding.instruction, Slot.fill, Statement.ofText_space hpush,
      Statement.withOperands_push, h.unbroken.dropWhile_isSpaceOrTab]
    exact h.outcome_push e
  | system =>
    rw [Encoding.instruction, Slot.fill, Statement.ofText_space hsys,
      Statement.withOperands_sys]
    exact h.outcome_system e
  | execute =>
    rw [Slot.fill, e.instruction_io (by decide) (by decide)]
    exact h.outcome_execute (hs rfl) e
  | peripheral t r =>
    rw [Slot.fill, e.instruction_io t.visible t.io]
    exact h.outcome_peripheral e t r
  | register t p hp =>
    rw [Slot.fill, e.instruction_io t.visible t.io]
    exact h.outcome_register e t hp

end ReadsAs

namespace Encoding

theorem completed_error (e : Encoding) {resolve : Text → Option Text} (k : Kind) {slot : Slot}
    (hcommand : ∀ m ∈ slot.command?, m ∈ e.isa.io) (hready : slot.Ready resolve) :
    e.completed resolve (.error k) slot = .error k := by
  have hknown : ∀ m, slot.command? = some m → ∃ code, e.isa.io[m]? = some code := fun m hm =>
    Option.isSome_iff_exists.mp (Std.ExtTreeMap.isSome_getElem?_iff_mem.mpr (hcommand m hm))
  cases slot with
  | push => rfl
  | system => rfl
  | execute =>
    obtain ⟨code, hcode⟩ := hknown _ rfl
    simp only [completed, executed, hcode]
    rfl
  | peripheral t r =>
    obtain ⟨code, hcode⟩ := hknown _ rfl
    simp only [completed, transfer, hcode]
    rfl
  | register t p hp =>
    obtain ⟨code, hcode⟩ := hknown _ rfl
    obtain ⟨n, hn, h₀, h₁⟩ := hready
    have hrange : ¬ (decide (n < 0) || decide (7 < n)) = true := by
      simp
      omega
    simp only [completed, transfer, hcode, hn, Except.bind, if_neg hrange]

end Encoding

/-- A key stands for the number it is bound to. In every slot for a number, a key that is bound to
the text of a number comes to the same word, or to a fault of the same kind, as the numeral. Any
other key is refused, unless something before it is. -/
theorem key_stands_for_its_number (layer : Layer) (e : Encoding) {key : Text} (hkey : IsKey key)
    (slot : Slot) (hslot : slot = .execute → IsSectionKey key) :
    (∀ value v, layer.lookup key = some value → Literal.short value.trim = .ok v →
      outcome layer.lookup (e.instruction (slot.fill key)) =
        outcome layer.lookup (e.instruction (slot.fill (ofInt v)))) ∧
    ((∀ value v, layer.lookup key = some value → Literal.short value.trim ≠ .ok v) →
      (∀ m ∈ slot.command?, m ∈ e.isa.io) → slot.Ready layer.lookup →
      outcome layer.lookup (e.instruction (slot.fill key)) = .error .invalidOperand) := by
  have hexec : ∀ x, slot = .execute → IsExecutable key x := by
    intro x hp n _ _ _
    rw [(hslot hp).isSectionKey_eq_true, Bool.or_true]
  rw [(layer.readsAs_key hkey).outcome_instruction (hexec _) e]
  constructor
  · intro value v hvalue hv
    obtain ⟨h₀, h₁⟩ := Literal.short_range hv
    have hnumber : layer.number key = .ok v := by
      rw [layer.number_of_lookup hvalue, hv]
      rfl
    rw [hnumber, (readsAs_ofInt _ h₀ h₁).outcome_instruction (fun _ => isExecutable_ofInt v)]
  · intro hunread hcommand hready
    rw [layer.number_eq_error hunread]
    exact e.completed_error .invalidOperand hcommand hready

theorem key_stands_for_its_number_uart :
    let layer : Layer := .stack [.absent, .table (Settings.set ∅ "$conf.io.uart" " 0x7 ")]
    let key : Text := "$conf.IO.Uart"
    let missing : Text := "$conf.io.modem"
    let e : Encoding := ⟨.standard, ∅⟩
    let behind : Slot := .register .get key (by decide)
    IsKey key ∧ IsSectionKey key ∧ layer.lookup key = some (utf8 " 0x7 ") ∧
      Literal.short (trim " 0x7 ") = .ok 7 ∧
      outcome layer.lookup (e.instruction (Slot.execute.fill key)) =
        outcome layer.lookup (e.instruction (Slot.execute.fill (ofInt 7))) ∧
      IsKey missing ∧ layer.lookup missing = none ∧ behind.Ready layer.lookup ∧
      outcome layer.lookup (e.instruction (behind.fill missing)) = .error .invalidOperand := by
  intro layer key missing e behind
  have hkey : IsKey key := ⟨by decide, by decide, by decide⟩
  have hsection : IsSectionKey key := ⟨"IO", "Uart", by decide, by decide, by decide⟩
  have hmissing : IsKey missing := ⟨by decide, by decide, by decide⟩
  have hvalue : layer.lookup key = some (utf8 " 0x7 ") := by decide
  have hnone : layer.lookup missing = none := by decide
  have hseven : Literal.short (trim " 0x7 ") = .ok 7 := by decide
  have hready : behind.Ready layer.lookup := ⟨7, by decide +kernel, by decide, by decide⟩
  have hunread : ∀ value v, layer.lookup missing = some value → Literal.short value.trim ≠ .ok v :=
    fun value v h => nomatch hnone.symm.trans h
  have hbound := (key_stands_for_its_number layer e hkey .execute fun _ => hsection).1
  have hunbound := (key_stands_for_its_number layer e hmissing behind nofun).2
  exact ⟨hkey, hsection, hvalue, hseven, hbound _ 7 hvalue hseven, hmissing, hnone, hready,
    hunbound hunread behind.command_mem_standard hready⟩

end B100
