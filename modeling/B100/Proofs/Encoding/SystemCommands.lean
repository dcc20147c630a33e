import B100.Proofs.Encoding.Tokens
import B100.Proofs.Literal.LowerCase
import B100.Proofs.Text.Fields

/-! # System commands

A system command is the word `cmd` and a token, which is a number or the key of a setting. The
encoder reads the token in lower case, and that makes no difference.
-/

namespace B100

open Encoder Operand Text

theorem Operand.resolves_short_lower_iff (layer : Layer) {token : Text} {n : Int} :
    Resolves Literal.short layer.lookup token.lower n ↔
      Resolves Literal.short layer.lookup token n := by
  simp only [Resolves, ne_eq, Literal.short_lower_eq_ok_iff, Layer.lookup_lower]

namespace Encoding

theorem result_system_eq_ok_iff {e : Encoding} {resolve : Text → Option Text} {operands : Text}
    {w : Word} :
    result resolve (e.system operands) = .ok w ↔
      ∃ token n, operands.fields = [utf8 "cmd", token] ∧
        Resolves Literal.short resolve token.lower n ∧ 0 ≤ n ∧ n ≤ 255 ∧
        w = e.isa.tag .sys ||| e.isa.sysFlag ||| Word.ofInt n := by
  unfold system
  split
  · next command token hfields =>
    simp only [result_guard_eq_ok_iff, result_bind_eq_ok_iff, result_short_eq_ok_iff, result_pure,
      Except.ok.injEq, Bool.or_eq_true, decide_eq_true_eq, not_or, Int.not_lt, not_not, hfields]
    constructor
    · rintro ⟨rfl, n, hn, ⟨h₀, h₁⟩, rfl⟩
      exact ⟨token, n, rfl, hn, h₀, h₁, rfl⟩
    · rintro ⟨_, n, ⟨⟩, hn, h₀, h₁, rfl⟩
      exact ⟨rfl, n, hn, ⟨h₀, h₁⟩, rfl⟩
  · next hfields =>
    have hother : ∀ command token, operands.fields ≠ [command, token] := hfields
    simp [hother]

end Encoding

/-- A system command is encoded exactly if its operands are the word `cmd` and a token that stands
for a number up to 255, as it is written or by the settings. Lower case never changes how a text is
read as a number, since no other character becomes one that a number may hold. -/
theorem system_reads_exactly_commands (layer : Layer) (labels : Labels) (operands : Text) :
    (∀ w, result layer.lookup (Encoding.system ⟨.standard, labels⟩ operands) = .ok w ↔
      ∃ token i, Spaced operands [utf8 "cmd", token] ∧
        Resolves Literal.short layer.lookup token i ∧ 0 ≤ i ∧ i ≤ 255 ∧
        w = (0x5100 : Word) ||| Word.ofInt i) ∧
    (∀ (t : Text) (n : Int), Literal.short t.lower = .ok n ↔ Literal.short t = .ok n) ∧
    (∀ (g : Glyph) (b : UInt8), b ∈ Literal.numberBytes → g.lower = .ofByte b →
      ∃ c ∈ Literal.numberBytes, lowerByte c = b ∧ g = .ofByte c) := by
  refine ⟨fun w => ?_, fun t n => Literal.short_lower_eq_ok_iff,
    fun g b => Literal.exists_of_lower_eq_ofByte⟩
  rw [Encoding.result_system_eq_ok_iff]
  simp only [fields_eq_iff, resolves_short_lower_iff]
  rfl

end B100
