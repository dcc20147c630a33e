import B100.Proofs.Encoding.Peripherals
import B100.Proofs.Settings.Document
import B100.Proofs.Settings.Lines

/-! # The case of keys

Case does not matter in a key. Settings keep one value for all spellings of a key, the one that was
set last, and an instruction comes to the same whichever spelling it has. Only executing asks for a
spelling of its own, which concerns the beginning of the key and not the rest.
-/

namespace B100

open Encoder Text

theorem IsCasedKey.of_sameLetters {key other : Text} (h : IsCasedKey key)
    (hsame : SameLetters key other) : IsCasedKey other where
  conf := hsame ▸ h.conf
  unbroken := hsame.unbroken h.unbroken
  comma := hsame.notMem (by decide) h.comma

theorem Layer.number_of_sameLetters (layer : Layer) {key other : Text}
    (h : SameLetters key other) : layer.number key = layer.number other := by
  rw [← layer.number_lower key, h.lower_eq, layer.number_lower]

theorem IsSectionKey.of_sameLetters {key other : Text} (h : IsSectionKey key)
    (hsame : SameLetters key other) (hconf : ("$conf." : Text) <+: other) : IsSectionKey other := by
  obtain ⟨a, b, ha, hb, rfl⟩ := h
  obtain ⟨rest, rfl⟩ := hconf
  have hrest : List.map lowerByte rest =
      a.map lowerByte ++ '.'.toUInt8 :: b.map lowerByte := by
    have hdot : lowerByte '.'.toUInt8 = '.'.toUInt8 := by decide
    simp only [SameLetters, List.append_assoc, List.map_append, List.append_cancel_left_eq,
      List.map_cons, hdot] at hsame
    exact hsame.symm
  obtain ⟨a', t, rfl, ha', ht⟩ := List.map_eq_append_iff.mp hrest
  obtain ⟨c, b', rfl, hc, hb'⟩ := List.map_eq_cons_iff.mp ht
  obtain rfl := (lowerByte_eq_iff (by decide)).mp hc
  refine ⟨a', b', ?_, ?_, (List.append_assoc _ _ _).symm⟩
  · rw [← Operand.isWord_map_lowerByte, ha', Operand.isWord_map_lowerByte, ha]
  · rw [← Operand.isWord_map_lowerByte, hb', Operand.isWord_map_lowerByte, hb]

theorem isSectionKey_of_sameLetters {key other : Text} (hsame : SameLetters key other)
    (hkey : ("$conf." : Text) <+: key) (hother : ("$conf." : Text) <+: other) :
    Operand.isSectionKey key = Operand.isSectionKey other := by
  rw [Bool.eq_iff_iff, isSectionKey_iff, isSectionKey_iff]
  exact ⟨fun h => h.of_sameLetters hsame hother, fun h => h.of_sameLetters hsame.symm hkey⟩

theorem isOneOrTwoDigits_of_conf {key : Text} (h : ("$conf." : Text) <+: key) :
    Operand.isOneOrTwoDigits key = false := by
  have hconf : List.all "$conf." Operand.isDigit = false := by decide
  obtain ⟨s, rfl⟩ := h
  rw [Operand.isOneOrTwoDigits, List.all_append, hconf, Bool.false_and, Bool.and_false]

namespace Encoding

variable (layer : Layer) (e : Encoding) {key other : Text}

theorem outcome_execute_of_sameLetters (hkey : IsCasedKey key) (hsame : SameLetters key other)
    (hconf : ("$conf." : Text) <+: key) (hconf' : ("$conf." : Text) <+: other) :
    outcome layer.lookup (e.instruction (Slot.execute.fill key)) =
      outcome layer.lookup (e.instruction (Slot.execute.fill other)) := by
  have hother := hkey.of_sameLetters hsame
  simp only [Slot.fill, e.instruction_io (m := "ioex") (by decide) (by decide),
    (layer.readsAs_casedKey hkey).outcome_execute_eq,
    (layer.readsAs_casedKey hother).outcome_execute_eq, layer.number_of_sameLetters hsame,
    isOneOrTwoDigits_of_conf hconf, isOneOrTwoDigits_of_conf hconf',
    isSectionKey_of_sameLetters hsame hconf hconf']

end Encoding

/-- Case does not matter in a key. Settings that are made by setting keys one after another give a
key the value that was set last for any spelling of it. In every slot for a number, two spellings of
a key that differ in the case of letters come to the same word, or to a fault of the same kind;
executing takes only spellings that begin with small letters. -/
theorem case_does_not_matter_in_keys :
    (∀ (bindings : List (Text × Text)) (key : Text), (Settings.setAll ∅ bindings).lookup key =
      (bindings.filter (·.1.lower = key.lower)).getLast?.map Prod.snd) ∧
    ∀ (layer : Layer) (e : Encoding) (key other : Text), IsCasedKey key → SameLetters key other →
      ∀ slot : Slot,
        (slot = .execute → ("$conf." : Text) <+: key ∧ ("$conf." : Text) <+: other) →
        outcome layer.lookup (e.instruction (slot.fill key)) =
          outcome layer.lookup (e.instruction (slot.fill other)) := by
  refine ⟨Settings.lookup_setAll, fun layer e key other hkey hsame slot hslot => ?_⟩
  have hother := hkey.of_sameLetters hsame
  by_cases hexecute : slot = .execute
  · subst hexecute
    exact e.outcome_execute_of_sameLetters layer hkey hsame (hslot rfl).1 (hslot rfl).2
  · rw [(layer.readsAs_casedKey hkey).outcome_instruction (absurd · hexecute),
      (layer.readsAs_casedKey hother).outcome_instruction (absurd · hexecute),
      layer.number_of_sameLetters hsame]

theorem case_does_not_matter_in_keys_uart :
    let upper : Layer := .table (Settings.setAll ∅ [("$conf.IO.UART", "1"), ("$CONF.io.uart", "6")])
    let layer : Layer := .stack [.absent, upper]
    let e : Encoding := ⟨.standard, ∅⟩
    let key : Text := "$Conf.io.Uart"
    let other : Text := "$cONF.IO.uart"
    IsCasedKey key ∧ SameLetters key other ∧ layer.lookup key = some (utf8 "6") ∧
      outcome layer.lookup (e.instruction (Slot.push.fill key)) = .ok 0x8006 ∧
      outcome layer.lookup (e.instruction (Slot.push.fill key)) =
        outcome layer.lookup (e.instruction (Slot.push.fill other)) := by
  intro upper layer e key other
  have hkey : IsCasedKey key := ⟨by decide, by decide, by decide⟩
  have hsame : SameLetters key other := by decide
  refine ⟨hkey, hsame, by decide +kernel, by decide +kernel, ?_⟩
  exact case_does_not_matter_in_keys.2 layer e key other hkey hsame .push nofun

end B100
