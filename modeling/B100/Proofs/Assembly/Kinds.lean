import B100.Proofs.Assembly.Observation
import B100.Proofs.Encoding.Faults
import B100.Proofs.Encoding.Statement
import B100.Proofs.Instruction.Standard

/-! # The kind of an error

The kind of an error says what is wrong with the line. Each kind has a condition on the line that
says so in terms of its text, and of all these conditions the line of an error meets exactly the one
of the kind that is reported.
-/

namespace B100

open Encoder Operand Text

namespace InstructionSet

theorem mem_standard_io_iff {m : Text} :
    m ∈ standard.io ↔ m = "ioex" ∨ m = "iosr" ∨ m = "iogr" := by
  constructor
  · intro h
    exact Codes.of_getElem? (P := fun x => x.1 = "ioex" ∨ x.1 = "iosr" ∨ x.1 = "iogr") (by decide)
      (Std.ExtTreeMap.getElem?_eq_some_getElem h)
  · rintro (rfl | rfl | rfl) <;> decide

theorem isPrefixOf_of_mem_standard_jump {m : Text} (h : m ∈ standard.jump) :
    ("j" : Text).isPrefixOf m = true :=
  Codes.of_getElem? (P := fun x => ("j" : Text).isPrefixOf x.1 = true) (by decide)
    (Std.ExtTreeMap.getElem?_eq_some_getElem h)

theorem not_isPrefixOf_of_mem_standard_alu {m : Text} (h : m ∈ standard.alu) :
    ¬ ("j" : Text).isPrefixOf m = true :=
  Codes.of_getElem? (P := fun x => ¬ ("j" : Text).isPrefixOf x.1 = true) (by decide)
    (Std.ExtTreeMap.getElem?_eq_some_getElem h)

end InstructionSet

namespace Line

/-- The line is a mnemonic, a gap and operands. -/
def Calls (l : Line) (mnemonic operands : Text) : Prop := ∃ run : Text,
  l.text = mnemonic ++ run ++ operands ∧ (∀ b ∈ mnemonic, isSpaceOrTab b = false) ∧ run.IsGap ∧
    operands.dropWhile isSpaceOrTab = operands

def IsWord (l : Line) : Prop := ∀ b ∈ l.text, isSpaceOrTab b = false

def Pushes (l : Line) (operand : Text) : Prop := ∃ mnemonic operands,
  l.Calls mnemonic operands ∧ mnemonic.lower = "push" ∧ operands.trim = operand ∧
    operand.any isSpaceOrTab = false

/-- The operands are not written as the mnemonic asks. Commands to a peripheral look at the
peripheral first. -/
inductive Misspelled (resolve : Text → Option Text) (l : Line) : Prop
  | push {m o : Text} (h : l.Calls m o) (hm : m.lower = "push")
      (ho : o.trim.any isSpaceOrTab = true) : Misspelled resolve l
  | copy {m o : Text} (h : l.Calls m o) (hm : m.lower = "copy") (ho : registerPair? o = none) :
      Misspelled resolve l
  | system {m o : Text} (h : l.Calls m o) (hm : m.lower = "sys") (ho : o.fields.length ≠ 2) :
      Misspelled resolve l
  | execute {o : Text} {n : Int} (h : l.Calls "ioex" o)
      (hn : Resolves Literal.index resolve (firstToken o) n) (hrange : 0 ≤ n ∧ n ≤ 7)
      (hdigits : isOneOrTwoDigits o.trim = false) (hkey : isSectionKey o.trim = false) :
      Misspelled resolve l
  | transfer {m o : Text} {n : Int} (h : l.Calls m o) (hm : m = "iosr" ∨ m = "iogr")
      (hn : Resolves Literal.index resolve (firstToken o) n) (hrange : 0 ≤ n ∧ n ≤ 7)
      (ho : secondToken? o = none) : Misspelled resolve l

inductive Unknown (l : Line) : Prop
  | word (h : l.IsWord) (hjump : l.text ∉ InstructionSet.standard.jump)
      (halu : l.text ∉ InstructionSet.standard.alu) : Unknown l
  | mnemonic {m o : Text} (h : l.Calls m o)
      (hany : m.lower ≠ "push" ∧ m.lower ≠ "copy" ∧ m.lower ≠ "sys")
      (hio : m ≠ "ioex" ∧ m ≠ "iosr" ∧ m ≠ "iogr") : Unknown l
  | command {m o command token : Text} (h : l.Calls m o) (hm : m.lower = "sys")
      (ho : o.fields = [command, token]) (hcommand : command ≠ "cmd") : Unknown l

inductive Exceeds (resolve : Text → Option Text) (src : Text) (l : Line) : Prop
  | label {name : Text} {before after : List Line} (h : l.Pushes ("$lbl." ++ name))
      (hlast : Source.LastDefinition name (Source.lines src) before after)
      (haddress : 0x7FFF < Source.size before) : Exceeds resolve src l
  | copy {m o : Text} {a b : Nat} (h : l.Calls m o) (hm : m.lower = "copy")
      (ho : registerPair? o = some (a, b)) (hrange : 15 < a ∨ 15 < b) : Exceeds resolve src l
  | peripheral {m o : Text} {n : Int} (h : l.Calls m o) (hm : m = "ioex" ∨ m = "iosr" ∨ m = "iogr")
      (hn : Resolves Literal.index resolve (firstToken o) n) (hrange : n < 0 ∨ 7 < n) :
      Exceeds resolve src l
  | register {m o token : Text} {n i : Int} (h : l.Calls m o) (hm : m = "iosr" ∨ m = "iogr")
      (hn : Resolves Literal.index resolve (firstToken o) n) (hperipheral : 0 ≤ n ∧ n ≤ 7)
      (ho : secondToken? o = some token) (hi : Resolves Literal.index resolve token i)
      (hrange : i < 0 ∨ 15 < i) : Exceeds resolve src l
  | system {m o token : Text} {n : Int} (h : l.Calls m o) (hm : m.lower = "sys")
      (ho : o.fields = [utf8 "cmd", token]) (hn : Resolves Literal.short resolve token.lower n)
      (hrange : n < 0 ∨ 255 < n) : Exceeds resolve src l

end Line

/-- The key was not found, or is bound to something else than a number. -/
def Lookup.Refused (q : Lookup) : Prop :=
  q.value = none ∨ ∃ value error, q.value = some value ∧ Literal.short value.trim = .error error

/-- What a kind of error says about the line of the error. -/
def Explains (resolve : Text → Option Text) (src : Text) (l : Line) : Kind → Prop
  | .syntaxError => l.Misspelled resolve
  | .unknownMnemonic => l.Unknown
  | .unknownLabel => ∃ name, l.Pushes ("$lbl." ++ name) ∧ ∀ d ∈ Source.lines src, ¬ d.Defines name
  | .outOfRange => l.Exceeds resolve src
  | .negativeOperand => ∃ operand n, l.Pushes operand ∧ ¬ ("$lbl." : Text) <+: operand ∧
      Resolves Literal.short resolve operand n ∧ n < 0
  | .invalidOperand => ∃ q, (assemble .standard resolve src).lookups.getLast? = some q ∧ q.Refused
  | .fileError => False

namespace Line

variable {l : Line} {m o : Text}

theorem isWord_or_calls (l : Line) : l.IsWord ∨ ∃ m o, l.Calls m o := by
  rcases hcut : l.text.cut isSpaceOrTab with ⟨m, _ | rest⟩
  · exact .inl (forall_of_cut_eq_none hcut).2
  · obtain ⟨run, htext, hm, hrun⟩ := Statement.exists_gap_of_cut hcut
    exact .inr ⟨m, _, run, htext, hm, hrun, List.dropWhile_idempotent ..⟩

theorem IsWord.ofText_eq (h : l.IsWord) : Statement.ofText l.text =
    if ("j" : Text).isPrefixOf l.text then .jump l.text else .operation l.text := by
  rw [Statement.ofText, cut_of_forall h]

theorem Calls.ofText_eq (h : l.Calls m o) :
    Statement.ofText l.text = Statement.withOperands m o := by
  obtain ⟨run, htext, hm, hrun, ho⟩ := h
  rw [htext, Statement.ofText_gap hm hrun, ho]

section Instruction

variable (h : l.Calls m o) (e : Encoding)

include h

theorem Calls.instruction_push (hm : m.lower = "push") : e.instruction l.text = e.push o := by
  rw [Encoding.instruction, h.ofText_eq, Statement.withOperands_of_lower_push o hm]
  rfl

theorem Calls.instruction_copy (hm : m.lower = "copy") : e.instruction l.text = e.copy o := by
  rw [Encoding.instruction, h.ofText_eq, Statement.withOperands_of_lower_copy o hm]
  rfl

theorem Calls.instruction_sys (hm : m.lower = "sys") : e.instruction l.text = e.system o := by
  rw [Encoding.instruction, h.ofText_eq, Statement.withOperands_of_lower_sys o hm]
  rfl

theorem Calls.instruction_io (hm : m = "ioex" ∨ m = "iosr" ∨ m = "iogr") :
    e.instruction l.text = e.peripheral m o := by
  have hio : ("io" : Text).isPrefixOf m = true := by
    rcases hm with rfl | rfl | rfl <;> decide
  rw [Encoding.instruction, h.ofText_eq, Statement.withOperands_io o hio]
  rfl

end Instruction

end Line

section Outcome

open Encoding Assembly

variable {resolve : Text → Option Text} {src : Text} {l : Line} {m o : Text} {k : Kind}

theorem mem_io (src : Text) (hm : m = "ioex" ∨ m = "iosr" ∨ m = "iogr") :
    m ∈ (encoding .standard src).isa.io :=
  InstructionSet.mem_standard_io_iff.mpr hm

theorem Line.Misspelled.outcome (h : l.Misspelled resolve) :
    outcome resolve ((encoding .standard src).instruction l.text) = .error .syntaxError := by
  cases h with
  | push h hm ho =>
    rw [h.instruction_push _ hm, outcome_push_eq_error_iff]
    exact .inl ⟨ho, rfl⟩
  | copy h hm ho =>
    rw [h.instruction_copy _ hm, outcome_copy_eq_error_iff]
    exact .inl ⟨ho, rfl⟩
  | system h hm ho =>
    rw [h.instruction_sys _ hm]
    exact (outcome_system_eq_error_iff (by decide)).mpr (.inl ⟨ho, rfl⟩)
  | @execute o n h hn hrange hdigits hkey =>
    rw [h.instruction_io _ (.inl rfl)]
    exact (outcome_peripheral_eq_error_iff (by decide) (mem_io src (.inl rfl))).mpr
      ⟨n, hn, .inr ⟨hrange, .inl ⟨rfl, hdigits, hkey, rfl⟩⟩⟩
  | @transfer m o n h hm hn hrange ho =>
    have hne : m ≠ "ioex" := by rcases hm with rfl | rfl <;> decide
    rw [h.instruction_io _ (.inr hm)]
    exact (outcome_peripheral_eq_error_iff (by decide) (mem_io src (.inr hm))).mpr
      ⟨n, hn, .inr ⟨hrange, .inr ⟨hne, .inl ⟨ho, rfl⟩⟩⟩⟩

theorem Line.Unknown.outcome (h : l.Unknown) :
    outcome resolve ((encoding .standard src).instruction l.text) = .error .unknownMnemonic := by
  cases h with
  | word h hjump halu =>
    rw [instruction, h.ofText_eq]
    split
    · exact outcome_jump_eq_error_iff.mpr ⟨hjump, rfl⟩
    · exact outcome_operation_eq_error_iff.mpr ⟨halu, rfl⟩
  | mnemonic h hany hio =>
    rw [instruction, h.ofText_eq]
    refine outcome_withOperands_unknown hany fun hm => ?_
    rcases InstructionSet.mem_standard_io_iff.mp hm with hm | hm | hm
    · exact hio.1 hm
    · exact hio.2.1 hm
    · exact hio.2.2 hm
  | command h hm ho hcommand =>
    rw [h.instruction_sys _ hm]
    exact (outcome_system_eq_error_iff (by decide)).mpr (.inr (.inl ⟨_, _, ho, hcommand, rfl⟩))

theorem Line.Pushes.outcome {operand : Text} (h : l.Pushes operand)
    (hvalue : outcome resolve ((encoding .standard src).pushValue operand) = .error k) :
    outcome resolve ((encoding .standard src).instruction l.text) = .error k := by
  obtain ⟨m, o, hcalls, hm, rfl, hany⟩ := h
  rw [hcalls.instruction_push _ hm, outcome_push_eq_error_iff]
  exact .inr ⟨hany, hvalue⟩

theorem Line.Exceeds.outcome (h : l.Exceeds resolve src) :
    outcome resolve ((encoding .standard src).instruction l.text) = .error .outOfRange := by
  cases h with
  | @label name before after h hlast haddress =>
    have hlt : (0x7FFF : Int) < Source.size before := by omega
    exact h.outcome ((outcome_pushValue_eq_error_iff (by decide)).mpr
      (.inr ⟨name, rfl, .inr ⟨_, hlast.address, hlt, rfl⟩⟩))
  | copy h hm ho hrange =>
    rw [h.instruction_copy _ hm, outcome_copy_eq_error_iff]
    exact .inr ⟨_, _, ho, hrange, rfl⟩
  | @peripheral m o n h hm hn hrange =>
    rw [h.instruction_io _ hm]
    exact (outcome_peripheral_eq_error_iff (by decide) (mem_io src hm)).mpr
      ⟨n, hn, .inl ⟨hrange, rfl⟩⟩
  | @register m o token n i h hm hn hperipheral ho hi hrange =>
    have hne : m ≠ "ioex" := by rcases hm with rfl | rfl <;> decide
    rw [h.instruction_io _ (.inr hm)]
    exact (outcome_peripheral_eq_error_iff (by decide) (mem_io src (.inr hm))).mpr
      ⟨n, hn, .inr ⟨hperipheral, .inr ⟨hne, .inr ⟨token, i, ho, hi, hrange, rfl⟩⟩⟩⟩
  | @system m o token n h hm ho hn hrange =>
    rw [h.instruction_sys _ hm]
    exact (outcome_system_eq_error_iff (by decide)).mpr
      (.inr (.inr ⟨token, n, ho, hn, hrange, rfl⟩))

/-- A line that meets the condition of a kind fails with that kind. -/
theorem Explains.outcome (hk : k ≠ .invalidOperand) (h : Explains resolve src l k) :
    outcome resolve ((encoding .standard src).instruction l.text) = .error k := by
  cases k with
  | syntaxError => exact Line.Misspelled.outcome h
  | unknownMnemonic => exact Line.Unknown.outcome h
  | unknownLabel =>
    obtain ⟨name, hpush, hundefined⟩ := h
    refine hpush.outcome ((outcome_pushValue_eq_error_iff hk).mpr (.inr ⟨name, rfl, .inl ?_⟩))
    exact ⟨Source.labels_of_undefined hundefined, rfl⟩
  | outOfRange => exact Line.Exceeds.outcome h
  | negativeOperand =>
    obtain ⟨operand, n, hpush, hlabel, hn, hneg⟩ := h
    exact hpush.outcome ((outcome_pushValue_eq_error_iff hk).mpr (.inl ⟨n, hlabel, hn, hneg, rfl⟩))
  | invalidOperand => exact absurd rfl hk
  | fileError => exact h.elim

theorem explains_of_isWord (h : l.IsWord)
    (herror : outcome resolve ((encoding .standard src).instruction l.text) = .error k) :
    Explains resolve src l k := by
  rw [instruction, h.ofText_eq] at herror
  split at herror
  · next hj =>
    obtain ⟨hjump, rfl⟩ := outcome_jump_eq_error_iff.mp herror
    exact .word h hjump fun halu => InstructionSet.not_isPrefixOf_of_mem_standard_alu halu hj
  · next hj =>
    obtain ⟨halu, rfl⟩ := outcome_operation_eq_error_iff.mp herror
    exact .word h (fun hjump => hj (InstructionSet.isPrefixOf_of_mem_standard_jump hjump)) halu

theorem explains_of_push (hk : k ≠ .invalidOperand) (h : l.Calls m o) (hm : m.lower = "push")
    (herror : outcome resolve ((encoding .standard src).push o) = .error k) :
    Explains resolve src l k := by
  rcases outcome_push_eq_error_iff.mp herror with ⟨ho, rfl⟩ | ⟨ho, hvalue⟩
  · exact .push h hm ho
  · have hpush : l.Pushes o.trim := ⟨m, o, h, hm, rfl, ho⟩
    rcases (outcome_pushValue_eq_error_iff hk).mp hvalue with
      ⟨n, hlabel, hn, hneg, rfl⟩ | ⟨name, hname, ⟨hnone, rfl⟩ | ⟨address, hsome, hlt, rfl⟩⟩
    · exact ⟨o.trim, n, hpush, hlabel, hn, hneg⟩
    · refine ⟨name, hname ▸ hpush, fun d hd hdefines => ?_⟩
      obtain ⟨before, after, hlast⟩ := Source.exists_lastDefinition ⟨d, hd, hdefines⟩
      cases hnone.symm.trans hlast.address
    · obtain ⟨before, after, hlast, rfl⟩ := Source.exists_lastDefinition_of_labels hsome
      exact .label (hname ▸ hpush) hlast (by omega)

theorem explains_of_copy (h : l.Calls m o) (hm : m.lower = "copy")
    (herror : outcome resolve ((encoding .standard src).copy o) = .error k) :
    Explains resolve src l k := by
  rcases outcome_copy_eq_error_iff.mp herror with ⟨ho, rfl⟩ | ⟨a, b, ho, hrange, rfl⟩
  · exact .copy h hm ho
  · exact .copy h hm ho hrange

theorem explains_of_sys (hk : k ≠ .invalidOperand) (h : l.Calls m o) (hm : m.lower = "sys")
    (herror : outcome resolve ((encoding .standard src).system o) = .error k) :
    Explains resolve src l k := by
  rcases (outcome_system_eq_error_iff hk).mp herror with
    ⟨ho, rfl⟩ | ⟨command, token, ho, hcommand, rfl⟩ | ⟨token, n, ho, hn, hrange, rfl⟩
  · exact .system h hm ho
  · exact .command h hm ho hcommand
  · exact .system h hm ho hn hrange

theorem explains_of_io (hk : k ≠ .invalidOperand) (h : l.Calls m o)
    (hm : m = "ioex" ∨ m = "iosr" ∨ m = "iogr")
    (herror : outcome resolve ((encoding .standard src).peripheral m o) = .error k) :
    Explains resolve src l k := by
  obtain ⟨n, hn, ⟨hrange, rfl⟩ | ⟨hperipheral, ⟨rfl, hdigits, hkey, rfl⟩ | ⟨hne, hrest⟩⟩⟩ :=
    (outcome_peripheral_eq_error_iff hk (mem_io src hm)).mp herror
  · exact .peripheral h hm hn hrange
  · exact .execute h hn hperipheral hdigits hkey
  · have hm := hm.resolve_left hne
    rcases hrest with ⟨ho, rfl⟩ | ⟨token, i, ho, hi, hrange, rfl⟩
    · exact .transfer h hm hn hperipheral ho
    · exact .register h hm hn hperipheral ho hi hrange

/-- A line that fails meets the condition of the kind it fails with. -/
theorem explains_of_outcome (hk : k ≠ .invalidOperand)
    (herror : outcome resolve ((encoding .standard src).instruction l.text) = .error k) :
    Explains resolve src l k := by
  rcases l.isWord_or_calls with hword | ⟨m, o, h⟩
  · exact explains_of_isWord hword herror
  · by_cases hpush : m.lower = "push"
    · exact explains_of_push hk h hpush (h.instruction_push _ hpush ▸ herror)
    by_cases hcopy : m.lower = "copy"
    · exact explains_of_copy h hcopy (h.instruction_copy _ hcopy ▸ herror)
    by_cases hsys : m.lower = "sys"
    · exact explains_of_sys hk h hsys (h.instruction_sys _ hsys ▸ herror)
    by_cases hio : m = "ioex" ∨ m = "iosr" ∨ m = "iogr"
    · exact explains_of_io hk h hio (h.instruction_io _ hio ▸ herror)
    · have hunknown : l.Unknown :=
        .mnemonic h ⟨hpush, hcopy, hsys⟩ (by simpa only [not_or] using hio)
      obtain rfl := Except.error.inj (herror.symm.trans hunknown.outcome)
      exact hunknown

theorem Lookup.refused_iff {q : Lookup} : q.Refused ↔ q.fault? ≠ none := by
  unfold Refused fault?
  cases q.value with
  | none => simp
  | some value => cases h : Literal.short value.trim <;> simp [h]

end Outcome

open Assembly

/-- The kind of an error tells the truth. The line of the first error meets the condition of the
kind that is reported, and of no other kind. -/
theorem error_kind_tells_the_truth (resolve : Text → Option Text) (src : Text) {e : SourceError}
    (h : (assemble .standard resolve src).outcome = .error e) :
    ∃ i l, FirstError .standard resolve src e i l ∧ e.line = l.number ∧
      ∀ k, Explains resolve src l k ↔ k = e.fault.kind := by
  obtain ⟨i, l, hfirst⟩ := exists_firstError h
  refine ⟨i, l, hfirst, line_of_word_eq_error hfirst.error, fun k => ?_⟩
  have hkind : outcome resolve ((encoding .standard src).instruction l.text) =
      .error e.fault.kind := by
    obtain ⟨f, hr, rfl⟩ := word_eq_error_iff.mp hfirst.error
    rw [Encoder.outcome, hr]
    rfl
  by_cases hk : k = .invalidOperand
  · subst hk
    have hlast := endsAtMiss .standard resolve src
    rw [h] at hlast
    rw [eq_comm, hlast.kind_eq_invalidOperand_iff]
    simp only [Explains, Lookup.refused_iff]
  · constructor
    · intro hexplains
      exact Except.error.inj ((hexplains.outcome hk).symm.trans hkind)
    · rintro rfl
      exact explains_of_outcome hk hkind

/-- The peripheral is looked up, and found to be none, before the rest of its line is read. -/
theorem error_kind_tells_the_truth_peripheral :
    let resolve : Text → Option Text := (Settings.set ∅ "$conf.p" " 8").lookup
    let src : Text := "push $conf.p\n:no\n\tioex\t$Conf.P,x\npush $lbl.yes"
    (assemble .standard resolve src).outcome = .error ⟨3, .peripheral 8⟩ ∧
      ∃ l : Line, l.number = 3 ∧ Explains resolve src l .outOfRange ∧
        ∀ k, k ≠ .outOfRange → ¬ Explains resolve src l k := by
  intro resolve src
  have houtcome : (assemble .standard resolve src).outcome = .error ⟨3, .peripheral 8⟩ := by
    decide +kernel
  obtain ⟨i, l, -, hline, hkinds⟩ := error_kind_tells_the_truth resolve src houtcome
  exact ⟨houtcome, l, hline.symm, (hkinds _).mpr rfl, fun k hk h => hk ((hkinds k).mp h)⟩

end B100
