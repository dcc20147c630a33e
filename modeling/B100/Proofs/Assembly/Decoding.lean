import B100.Proofs.Assembly.Labels
import B100.Proofs.Encoding.Resolution
import B100.Proofs.Instruction.Standard

/-! # Decoding assembled words

The words of an assembly decode to what their lines say. So within one well-formed instruction set
lines that say different things have different words, also across sources.
-/

namespace B100

namespace InstructionSet

theorem WellFormed.pack_inj {isa : InstructionSet} (h : isa.WellFormed) {i j : Instruction}
    (hi : isa.Admits i) (hj : isa.Admits j) (he : isa.pack i = isa.pack j) : i = j := by
  have hd := h.decodeAmong?_pack hi Class.mem_all
  rw [he, h.decodeAmong?_pack hj Class.mem_all] at hd
  exact (Option.some.inj hd).symm

end InstructionSet

namespace Assembly

variable {isa : InstructionSet} {resolve : Text → Option Text} {src : Text}

theorem encoding_sound (isa : InstructionSet) (src : Text) : (encoding isa src).Sound := by
  intro name address h
  obtain ⟨before, -, -, rfl⟩ := Source.exists_lastDefinition_of_labels h
  exact Int.natCast_nonneg _

def resolved? (isa : InstructionSet) (resolve : Text → Option Text) (src : Text) (l : Line) :
    Option Instruction :=
  (encoding isa src).resolved? resolve (Statement.ofText l.text)

theorem encodes_of_outcome_eq_ok {p : Program} (hp : (assemble isa resolve src).outcome = .ok p)
    {k : Nat} {l : Line} (hl : (Source.instructions src)[k]? = some l) :
    ∃ w i, p[k]? = some w ∧
      (encoding isa src).Encodes resolve (Statement.ofText l.text) w i := by
  obtain ⟨w, hw, hok⟩ := getElem?_of_outcome_eq_ok hp hl
  obtain ⟨i, hi⟩ := Encoding.encodes_statement (encoding_sound isa src) (word_eq_ok_iff.mp hok)
  exact ⟨w, i, hw, hi⟩

end Assembly

open Assembly

/-- Decoding undoes encoding: the class and the fields of each word are those of its line, in
whatever order the classes are tried. -/
theorem decoding_undoes_encoding :
    InstructionSet.standard.WellFormed ∧
    ∀ (isa : InstructionSet), isa.WellFormed →
    ∀ (resolve : Text → Option Text) (src : Text) (p : Program),
      (assemble isa resolve src).outcome = .ok p →
    ∀ (k : Nat) (l : Line), (Source.instructions src)[k]? = some l →
      (∃ w i, p[k]? = some w ∧ resolved? isa resolve src l = some i ∧
        (Statement.ofText l.text).class? = some i.toClass ∧
        isa.classOf? w = some i.toClass ∧
        (∀ order, order.Perm Class.all → isa.classAmong? order w = some i.toClass) ∧
        Instruction.ofWord i.toClass w = i) ∧
      ∀ (resolve' : Text → Option Text) (src' : Text) (p' : Program),
        (assemble isa resolve' src').outcome = .ok p' →
      ∀ (k' : Nat) (l' : Line), (Source.instructions src')[k']? = some l' →
        (Statement.ofText l.text).class? ≠ (Statement.ofText l'.text).class? ∨
          resolved? isa resolve src l ≠ resolved? isa resolve' src' l' →
        p[k]? ≠ p'[k']? := by
  refine ⟨InstructionSet.standard_wellFormed, fun isa h resolve src p hp k l hl => ?_⟩
  obtain ⟨w, i, hw, hi⟩ := encodes_of_outcome_eq_ok hp hl
  have hclass : ∀ order : List Class, (∀ c, c ∈ order) →
      isa.classAmong? order w = some i.toClass := by
    intro order ho
    rw [← hi.packed]
    exact h.classAmong?_pack hi.admits ho
  constructor
  · refine ⟨w, i, hw, hi.resolved, hi.toClass, hclass _ Class.mem_all, fun order ho => ?_, ?_⟩
    · exact hclass order fun c => ho.mem_iff.mpr (Class.mem_all c)
    · rw [← hi.packed]
      exact h.ofWord_pack hi.admits
  · intro resolve' src' p' hp' k' l' hl' hdiffer heq
    obtain ⟨w', j, hw', hj⟩ := encodes_of_outcome_eq_ok hp' hl'
    obtain rfl : w = w' := Option.some.inj (hw.symm.trans (heq.trans hw'))
    obtain rfl : i = j := h.pack_inj hi.admits hj.admits (hi.packed.trans hj.packed.symm)
    rcases hdiffer with hc | hr
    · exact hc (hi.toClass.trans hj.toClass.symm)
    · exact hr (hi.resolved.trans hj.resolved.symm)

/-- A register that is a setting, and a copy that reads the same registers. -/
theorem decoding_undoes_encoding_setting :
    let src : Text := "push $lbl.end\nCOPY 2,15\niosr 2,$conf.bus.register\n:end"
    let resolve : Text → Option Text := fun _ => some " 0xF "
    let p : Program := [0x8003, 0x12F0, 0x42F1]
    let l : Line := ⟨"iosr 2,$conf.bus.register", 3, .instruction⟩
    (assemble .standard resolve src).outcome = .ok p ∧
      (∃ w i, p[2]? = some w ∧ resolved? .standard resolve src l = some i ∧
        InstructionSet.standard.classOf? w = some i.toClass ∧
        Instruction.ofWord i.toClass w = i) ∧
      p[2]? ≠ p[1]? := by
  intro src resolve p l
  have hp : (assemble .standard resolve src).outcome = .ok p := by
    decide +kernel
  obtain ⟨⟨w, i, hw, hr, -, hc, -, hi⟩, hne⟩ :=
    decoding_undoes_encoding.2 .standard decoding_undoes_encoding.1 resolve src p hp 2 l
      (by decide +kernel)
  refine ⟨hp, ⟨w, i, hw, hr, hc, hi⟩, ?_⟩
  exact hne resolve src p hp 1 ⟨"COPY 2,15", 2, .instruction⟩ (by decide +kernel)
    (.inl (by decide))

end B100
