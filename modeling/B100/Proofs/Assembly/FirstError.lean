import B100.Proofs.Assembly.Labels
import B100.Proofs.Source.Lines
import B100.Proofs.Word.Image
import B100.Session

/-! # The first error

An assembly is all or nothing. Either every instruction line has its word, or the first line that
has none decides the error, with the number of that line in the text as it was given.
-/

namespace B100

namespace Assembly

variable (isa : InstructionSet) (resolve : Text → Option Text) (src : Text)

/-- The error is that of the instruction line at index `i`, and every line before it has a word. -/
structure FirstError (e : SourceError) (i : Nat) (l : Line) : Prop where
  line : (Source.instructions src)[i]? = some l
  error : word isa resolve src l = .error e
  first : ∀ m ∈ (Source.instructions src).take i, ∃ w, word isa resolve src m = .ok w

variable {isa resolve src} {e : SourceError} {i : Nat} {l : Line}

theorem line_of_word_eq_error (h : word isa resolve src l = .error e) : e.line = l.number := by
  obtain ⟨f, -, rfl⟩ := word_eq_error_iff.mp h
  rfl

theorem FirstError.exists_lineAt (h : FirstError isa resolve src e i l) :
    ∃ before raw after, Source.LineAt src before raw after ∧
      l = Line.ofRaw raw (before.count Source.newline) ∧
      e.line = 1 + before.count Source.newline := by
  have hmem : l ∈ Source.lines src := List.mem_of_mem_filter (List.mem_of_getElem? h.line)
  obtain ⟨before, raw, after, hat, rfl⟩ := Source.exists_lineAt_of_mem_lines hmem
  refine ⟨before, raw, after, hat, rfl, ?_⟩
  rw [line_of_word_eq_error h.error, Line.ofRaw, Int.add_comm]

theorem exists_firstError (h : (assemble isa resolve src).outcome = .error e) :
    ∃ i l, FirstError isa resolve src e i l := by
  obtain ⟨i, l, hl, hw, hfirst⟩ := outcome_eq_error_iff.mp h
  exact ⟨i, l, hl, hw, hfirst⟩

end Assembly

open Assembly

/-- All or nothing, with the first error and its line. The labels are those of the source in either
case, whatever was assembled before, each at the number of instructions before its last line. -/
theorem assembly_is_all_or_first_error (isa : InstructionSet) (resolve : Text → Option Text)
    (src : Text) :
    ((∃ p, (assemble isa resolve src).outcome = .ok p ∧
        (Source.instructions src).map (word isa resolve src) = p.map .ok ∧
        p.length = Source.size (Source.lines src) ∧
        p.image.length = 2 * Source.size (Source.lines src)) ∨
      ∃ e i l before raw after, (assemble isa resolve src).outcome = .error e ∧
        FirstError isa resolve src e i l ∧ e.fault.kind ≠ .fileError ∧
        Source.LineAt src before raw after ∧ l = Line.ofRaw raw (before.count Source.newline) ∧
        e.line = 1 + before.count Source.newline) ∧
    ((∃ e, (assemble isa resolve src).outcome = .error e) ↔
      ∃ l ∈ Source.instructions src, ∃ e, word isa resolve src l = .error e) ∧
    (assemble isa resolve src).labels = Source.labels (Source.lines src) ∧
    Source.Tabulates (Source.lines src) (Source.labels (Source.lines src)) ∧
    ∀ s : Session, (s.assemble src).1.labels = Source.labels (Source.lines src) ∧
      (s.assemble src).2.outcome = (assemble s.isa s.resolver.lookup src).outcome := by
  refine ⟨?_, ⟨?_, ?_⟩, rfl, Source.tabulates _, fun s => ⟨rfl, rfl⟩⟩
  · cases h : (assemble isa resolve src).outcome with
    | ok p =>
      have hlen := length_of_outcome_eq_ok h
      exact .inl ⟨p, rfl, outcome_eq_ok_iff.mp h, hlen, by rw [Program.length_image, hlen]⟩
    | error e =>
      obtain ⟨i, l, hfirst⟩ := exists_firstError h
      obtain ⟨before, raw, after, hat, hl, hline⟩ := hfirst.exists_lineAt
      exact .inr ⟨e, i, l, before, raw, after, rfl, hfirst, e.fault.kind_ne_fileError, hat, hl,
        hline⟩
  · rintro ⟨e, h⟩
    obtain ⟨i, l, hfirst⟩ := exists_firstError h
    exact ⟨l, List.mem_of_getElem? hfirst.line, e, hfirst.error⟩
  · rintro ⟨l, hl, e, hw⟩
    exact exists_outcome_eq_error hl hw

end B100
