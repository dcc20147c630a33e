import B100.Proofs.Encoding.Running
import B100.Proofs.Encoding.Statement
import B100.Proofs.Instruction.Standard
import B100.Proofs.Text.Numeral

/-! # Canonical lines

Every instruction has a canonical line, with its operands in decimal. Encoding that line asks for no
setting and gives back the word of the instruction.
-/

namespace B100

open Text

def Codes.mnemonic (codes : Codes) (code : Word) : Text :=
  ((codes.toList.find? (·.2 == code)).map Prod.fst).getD []

theorem Codes.getElem?_mnemonic {codes : Codes} {code : Word}
    (h : ∃ m : Text, codes[m]? = some code) : codes[codes.mnemonic code]? = some code := by
  obtain ⟨m, hm⟩ := h
  rw [← Std.ExtTreeMap.mem_toList_iff_getElem?_eq_some] at hm
  cases hf : codes.toList.find? (·.2 == code) with
  | none => simpa using List.find?_eq_none.mp hf _ hm
  | some x =>
    obtain ⟨m', code'⟩ := x
    obtain rfl : code' = code := by simpa using List.find?_some hf
    simpa [mnemonic, hf] using
      Std.ExtTreeMap.mem_toList_iff_getElem?_eq_some.mp (List.mem_of_find?_eq_some hf)

namespace InstructionSet

def text (isa : InstructionSet) : Instruction → Text
  | .push n => "push" ++ ' '.toUInt8 :: ofInt n
  | .copy s d => "copy" ++ ' '.toUInt8 :: (ofInt s ++ ','.toUInt8 :: ofInt d)
  | .jump code => isa.jump.mnemonic code
  | .operation code => isa.alu.mnemonic code
  | .peripheral n r code =>
    let m := isa.io.mnemonic code
    m ++ ' '.toUInt8 :: if m = "ioex" then ofInt n else ofInt n ++ ','.toUInt8 :: ofInt r
  | .system _ i => "sys" ++ ' '.toUInt8 :: ("cmd" ++ ' '.toUInt8 :: ofInt i)

end InstructionSet

theorem visible_pair (n r : Nat) : (ofNat n ++ ','.toUInt8 :: ofNat r).Visible :=
  (visible_ofNat n).append ((by decide : Visible ",").append (visible_ofNat r))

theorem cut_numeral (n : Nat) (t : Text) :
    (ofNat n ++ ','.toUInt8 :: t).cut (· == ','.toUInt8) = (ofNat n, some t) :=
  cut_append_cons (forall_mem_ofNat (by decide) n) (by decide) t

theorem not_outside {n : Nat} {m : Int} (h : n ≤ m) :
    ¬ (decide ((n : Int) < 0) || decide (m < n)) = true := by
  simp
  omega

namespace Encoding

variable (e : Encoding)

theorem push_ofNat {n : Nat} (h : n ≤ 0x7FFF) : e.push (ofNat n) = pure (e.isa.pack (.push n)) := by
  have hs : (ofNat n).any isSpaceOrTab = false := by
    simpa using (visible_ofNat n).not_isSpaceOrTab
  have hn : ¬ (n : Int) < 0 := by omega
  simp only [push, (visible_ofNat n).clean.trim_eq_self, hs, pushValue, Literal.short_ofNat h,
    if_neg hn]
  rfl

theorem copy_ofNat {s d : Nat} (hs : s ≤ 15) (hd : d ≤ 15) :
    e.copy (ofNat s ++ ','.toUInt8 :: ofNat d) = pure (e.isa.pack (.copy s d)) := by
  have hp : Operand.registerPair? (ofNat s ++ ','.toUInt8 :: ofNat d) = some (s, d) := by
    simp only [Operand.registerPair?, cut_numeral, Operand.register?_ofNat (show s < 100 by omega),
      Operand.register?_ofNat (show d < 100 by omega)]
  rw [InstructionSet.pack_copy]
  simp only [copy, hp, if_neg (Nat.not_lt.mpr hs), if_neg (Nat.not_lt.mpr hd)]

theorem peripheral_ofNat {m : Text} {code : Word} (hc : e.isa.io[m]? = some code) (hm : m ≠ "ioex")
    {n r : Nat} (hn : n ≤ 7) (hr : r ≤ 15) :
    e.peripheral m (ofNat n ++ ','.toUInt8 :: ofNat r) =
      pure (e.isa.pack (.peripheral n r code)) := by
  have hn' := not_outside (show (n : Int) ≤ 7 by omega)
  have hr' := not_outside (show (r : Int) ≤ 15 by omega)
  rw [InstructionSet.pack_peripheral]
  simp only [peripheral, hc, (visible_pair n r).clean.trim_eq_self, cut_numeral,
    (visible_ofNat _).clean.trim_eq_self, lower_ofNat,
    Operand.index_ofNat (show n ≤ 0x7FFF by omega), Operand.index_ofNat (show r ≤ 0x7FFF by omega),
    Encoder.pure_bind, if_neg hn', if_neg hr', if_neg hm]

theorem execute_ofNat {code : Word} (hc : e.isa.io[utf8 "ioex"]? = some code) {n : Nat}
    (hn : n ≤ 7) :
    e.peripheral "ioex" (ofNat n) = pure (e.isa.pack (.peripheral n 0 code)) := by
  have hcut : (ofNat n).cut (· == ','.toUInt8) = (ofNat n, none) :=
    cut_of_forall (forall_mem_ofNat (by decide) n)
  have hn' := not_outside (show (n : Int) ≤ 7 by omega)
  rw [InstructionSet.pack_execute]
  simp only [peripheral, hc, (visible_ofNat _).clean.trim_eq_self, hcut, lower_ofNat,
    Operand.index_ofNat (show n ≤ 0x7FFF by omega), Encoder.pure_bind, if_neg hn',
    Operand.isOneOrTwoDigits_ofNat (show n < 100 by omega), Bool.true_or, if_true]

theorem system_ofNat {i : Nat} (hi : i ≤ 255) :
    e.system ("cmd" ++ ' '.toUInt8 :: ofNat i) = pure (e.isa.pack (.system e.isa.sysFlag i)) := by
  have hi' := not_outside (show (i : Int) ≤ 255 by omega)
  rw [InstructionSet.pack_system]
  simp only [system, (show Visible "cmd" by decide).unbroken.fields_append_space (by decide)
      (visible_ofNat i).unbroken (ofNat_ne_nil i), lower_ofNat,
    Operand.short_ofNat (show i ≤ 0x7FFF by omega), Encoder.pure_bind, if_neg hi', ne_eq, not_true,
    if_false]

/-- The line is an instruction, and encoding it gives the word and asks nothing. -/
structure Spells (e : Encoding) (line : Text) (w : Word) : Prop where
  clean : line.Clean
  kind : LineKind.ofTrimmed line = .instruction
  encoded : e.instruction line = pure w

variable {e} {w : Word}

theorem spells_withOperands {m operands : Text} (hm : m.Visible) (ho : operands.Clean)
    (hmark : m.head? ≠ some '#'.toUInt8 ∧ m.head? ≠ some ':'.toUInt8)
    (h : e.statement (.withOperands m operands) = pure w) :
    e.Spells (m ++ ' '.toUInt8 :: operands) w := by
  have hclean := hm.clean.append_space ho
  refine ⟨hclean, ?_, ?_⟩
  · have hlen : ¬ (m ++ ' '.toUInt8 :: operands).glyphs.length < 2 := by
      have hpos := hm.clean.length_pos
      rw [hclean.length_glyphs, List.length_append, List.length_cons]
      omega
    have hfirst : ∀ c : UInt8, m.head? ≠ some c →
        ¬ [c].isPrefixOf (m ++ ' '.toUInt8 :: operands) = true := by
      intro c hc
      obtain ⟨b, t, rfl⟩ := List.exists_cons_of_ne_nil hm.nonempty
      have hb : c ≠ b := fun h => hc (congrArg some h.symm)
      simpa using hb
    have hcomment : ¬ ("#" : Text).isPrefixOf (m ++ ' '.toUInt8 :: operands) = true :=
      hfirst _ hmark.1
    have hlabel : ¬ (":" : Text).isPrefixOf (m ++ ' '.toUInt8 :: operands) = true :=
      hfirst _ hmark.2
    simp [LineKind.ofTrimmed, hlen, hcomment, hlabel]
  · rw [instruction, Statement.ofText_space hm, ho.dropWhile_isSpaceOrTab]
    exact h

theorem spells_jump (labels : Labels) {m : Text} {code : Word}
    (h : InstructionSet.standard.jump[m]? = some code) :
    Spells ⟨.standard, labels⟩ m (InstructionSet.standard.pack (.jump code)) := by
  obtain ⟨hv, hk, hs⟩ := Codes.of_getElem? (P := fun x => Visible x.1 ∧
    LineKind.ofTrimmed x.1 = .instruction ∧ Statement.ofText x.1 = .jump x.1) (by decide) h
  refine ⟨hv.clean, hk, ?_⟩
  simp only [instruction, hs, statement, jump, h]
  rfl

theorem spells_operation (labels : Labels) {m : Text} {code : Word}
    (h : InstructionSet.standard.alu[m]? = some code) :
    Spells ⟨.standard, labels⟩ m (InstructionSet.standard.pack (.operation code)) := by
  obtain ⟨hv, hk, hs⟩ := Codes.of_getElem? (P := fun x => Visible x.1 ∧
    LineKind.ofTrimmed x.1 = .instruction ∧ Statement.ofText x.1 = .operation x.1) (by decide) h
  have hm : m ∈ InstructionSet.standard.alu := by
    rw [Std.ExtTreeMap.mem_iff_isSome_getElem?, h]
    rfl
  refine ⟨hv.clean, hk, ?_⟩
  simp only [instruction, hs, statement, if_pos hm, operation, h]
  rfl

theorem spells_execute (labels : Labels) {code : Word}
    (h : InstructionSet.standard.io[utf8 "ioex"]? = some code) {n : Nat} (hn : n ≤ 7) :
    Spells ⟨.standard, labels⟩ ("ioex" ++ ' '.toUInt8 :: ofNat n)
      (InstructionSet.standard.pack (.peripheral n 0 code)) := by
  apply spells_withOperands (by decide) (visible_ofNat n).clean (by decide)
  rw [Statement.withOperands_io _ (by decide), statement]
  exact execute_ofNat _ h hn

theorem spells_transfer (labels : Labels) {m : Text} {code : Word}
    (h : InstructionSet.standard.io[m]? = some code) (hm : m ≠ "ioex") {n r : Nat} (hn : n ≤ 7)
    (hr : r ≤ 15) :
    Spells ⟨.standard, labels⟩ (m ++ ' '.toUInt8 :: (ofNat n ++ ','.toUInt8 :: ofNat r))
      (InstructionSet.standard.pack (.peripheral n r code)) := by
  obtain ⟨hv, hmark, hio⟩ : Visible m ∧
      (m.head? ≠ some '#'.toUInt8 ∧ m.head? ≠ some ':'.toUInt8) ∧
      ("io" : Text).isPrefixOf m = true :=
    Codes.of_getElem? (P := fun x => Visible x.1 ∧
      (x.1.head? ≠ some '#'.toUInt8 ∧ x.1.head? ≠ some ':'.toUInt8) ∧
      ("io" : Text).isPrefixOf x.1 = true) (by decide) h
  apply spells_withOperands hv (visible_pair n r).clean hmark
  rw [Statement.withOperands_io _ hio, statement]
  exact peripheral_ofNat _ h hm hn hr

theorem spells_text (labels : Labels) {i : Instruction} (hi : InstructionSet.standard.Admits i) :
    Spells ⟨.standard, labels⟩ (InstructionSet.standard.text i)
      (InstructionSet.standard.pack i) := by
  cases i with
  | push n =>
    obtain ⟨h₀, h₁⟩ := hi
    lift n to Nat using h₀
    rw [InstructionSet.text, ofInt_natCast]
    apply spells_withOperands (by decide) (visible_ofNat n).clean (by decide)
    rw [Statement.withOperands_push, statement]
    exact push_ofNat _ (by omega)
  | copy s d =>
    obtain ⟨⟨hs₀, hs₁⟩, hd₀, hd₁⟩ := hi
    lift s to Nat using hs₀
    lift d to Nat using hd₀
    rw [InstructionSet.text, ofInt_natCast, ofInt_natCast]
    apply spells_withOperands (by decide) (visible_pair s d).clean (by decide)
    rw [Statement.withOperands_copy, statement]
    exact copy_ofNat _ (by omega) (by omega)
  | jump code => exact spells_jump labels (Codes.getElem?_mnemonic hi)
  | operation code => exact spells_operation labels (Codes.getElem?_mnemonic hi)
  | peripheral n r code =>
    obtain ⟨⟨hn₀, hn₁⟩, ⟨hr₀, hr₁⟩, m, hm, hex⟩ := hi
    lift n to Nat using hn₀
    lift r to Nat using hr₀
    have hc := Codes.getElem?_mnemonic ⟨m, hm⟩
    -- Only one mnemonic has the code of an execution, whichever the line is spelled with.
    have hunique : ∀ {m : Text}, InstructionSet.standard.io[m]? = some code →
        (m = "ioex" ↔ code = 0x0800) :=
      Codes.of_getElem? (P := fun x => x.1 = "ioex" ↔ x.2 = 0x0800) (by decide)
    simp only [InstructionSet.text, ofInt_natCast]
    split
    · next he =>
      have hr : (r : Int) = 0 := hex ((hunique hm).mpr ((hunique hc).mp he))
      rw [he] at hc ⊢
      rw [hr]
      exact spells_execute labels hc (by omega)
    · next hne => exact spells_transfer labels hc hne (by omega) (by omega)
  | system flag n =>
    obtain ⟨rfl, h₀, h₁⟩ := hi
    lift n to Nat using h₀
    rw [InstructionSet.text, ofInt_natCast]
    apply spells_withOperands (by decide)
      ((by decide : Visible "cmd").clean.append_space (visible_ofNat n).clean) (by decide)
    rw [Statement.withOperands_sys, statement]
    exact system_ofNat _ (by omega)

end Encoding

end B100
