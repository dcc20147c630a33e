import B100.Proofs.Assembly.Decoding
import B100.Proofs.Encoding.Canonical
import B100.Proofs.Word.Image

/-! # Disassembly

The words that an assembly can produce are the valid ones, and no others: the canonical lines of any
list of valid words assemble into that list.
-/

namespace B100

/-- The canonical line of a word, empty if the word is no instruction. -/
def Word.text (w : Word) : Text :=
  match InstructionSet.standard.decodeAmong? Class.all w with
  | some i => InstructionSet.standard.text i
  | none => []

def Program.disassembly (p : Program) : Text := ['\n'.toUInt8].intercalate (p.map Word.text)

theorem Encoding.spells_word (labels : Labels) {w : Word} (hw : w.Valid) :
    Spells ⟨.standard, labels⟩ w.text w := by
  obtain ⟨i, hi, rfl⟩ := InstructionSet.valid_iff.mp hw
  rw [Word.text, InstructionSet.standard_wellFormed.decodeAmong?_pack hi Class.mem_all]
  exact spells_text labels hi

namespace Encoding

variable {e : Encoding} {line : Text} {w : Word}

theorem Spells.isInstruction_ofRaw (h : e.Spells line w) (i : Nat) :
    (Line.ofRaw line i).isInstruction = true := by
  simp [Line.isInstruction, Line.ofRaw, LineKind.classify, h.clean.trim_eq_self, h.kind]

theorem Spells.line_ofRaw (h : e.Spells line w) (resolve : Text → Option Text) (i : Nat) :
    e.line resolve (Line.ofRaw line i) = ([], .ok w) := by
  simp only [Encoding.line, Line.ofRaw, h.clean.trim_eq_self, h.encoded]
  rfl

end Encoding

namespace Source

theorem rawLines_intercalate {ls : List Text} (h : ∀ l ∈ ls, l.Clean) :
    rawLines (['\n'.toUInt8].intercalate ls) = ls := by
  by_cases hne : ls = []
  · rw [hne]
    rfl
  · have hlast : ls.getLast? ≠ some [] := by
      intro he
      exact absurd (h [] (List.mem_of_getLast? he)).length_pos (by decide)
    rw [rawLines, List.splitOn_intercalate _ (fun l hl => (h l hl).newline_notMem) hne]
    simp [hlast]

end Source

namespace Assembly

/-- A word that no setting had a part in. -/
def plain (w : Word) : List Lookup × Except SourceError Word := ([], .ok w)

theorem collect_map_plain (p : Program) : collect (p.map plain) = ([], .ok p) := by
  induction p with
  | nil => rfl
  | cons w p ih =>
    change cons (plain w) (collect (p.map plain)) = _
    rw [ih]
    rfl

theorem assemble_of_spells {isa : InstructionSet} (line : Word → Text) {p : Program}
    (h : ∀ w ∈ p, ∀ labels, Encoding.Spells ⟨isa, labels⟩ (line w) w)
    (resolve : Text → Option Text) :
    let a := assemble isa resolve (['\n'.toUInt8].intercalate (p.map line))
    a.lookups = [] ∧ a.outcome = .ok p := by
  intro a
  have hlines : Source.lines (['\n'.toUInt8].intercalate (p.map line)) =
      p.zipIdx.map fun x => Line.ofRaw (line x.1) x.2 := by
    rw [Source.lines, Source.rawLines_intercalate, List.zipIdx_map, List.map_map]
    · rfl
    · intro l hl
      obtain ⟨w, hw, rfl⟩ := List.mem_map.mp hl
      exact (h w hw ∅).clean
  have hencoded : ∀ labels, ((p.zipIdx.map fun x => Line.ofRaw (line x.1) x.2).filter
      Line.isInstruction).map (Encoding.line ⟨isa, labels⟩ resolve) = p.map plain := by
    intro labels
    have hspells : ∀ x ∈ p.zipIdx, Encoding.Spells ⟨isa, labels⟩ (line x.1) x.1 :=
      fun x hx => h x.1 (List.fst_mem_of_mem_zipIdx hx) labels
    rw [List.filter_eq_self.mpr, List.map_map]
    · calc
        _ = p.zipIdx.map (plain ∘ Prod.fst) :=
          List.map_congr_left fun x hx => (hspells x hx).line_ofRaw resolve x.2
        _ = (p.zipIdx.map Prod.fst).map plain := by rw [List.map_map]
        _ = p.map plain := by rw [List.zipIdx_map_fst]
    · intro l hl
      obtain ⟨x, hx, rfl⟩ := List.mem_map.mp hl
      exact (hspells x hx).isInstruction_ofRaw x.2
  simp only [a, assemble, hlines, hencoded, collect_map_plain, and_self]

end Assembly

open Assembly

/-- The words that assembling can give are exactly the valid ones. -/
theorem assembled_words_are_valid_words :
    (∀ (resolve : Text → Option Text) (src : Text) (p : Program),
      (assemble .standard resolve src).outcome = .ok p → ∀ w ∈ p, w.Valid) ∧
    ∀ (resolve : Text → Option Text) (ws : List Word), (∀ w ∈ ws, w.Valid) →
      (assemble .standard resolve (Program.disassembly ws)).outcome = .ok ws ∧
      (assemble .standard resolve (Program.disassembly ws)).lookups = [] ∧
      Image.words (Program.image ws) = .ok ws := by
  constructor
  · intro resolve src p hp w hw
    obtain ⟨k, hk⟩ := List.mem_iff_getElem?.mp hw
    have hlen : k < (Source.instructions src).length := by
      rw [Source.length_instructions, ← length_of_outcome_eq_ok hp]
      exact (List.getElem?_eq_some_iff.mp hk).1
    obtain ⟨w', i, hw', hi⟩ := encodes_of_outcome_eq_ok hp (List.getElem?_eq_getElem hlen)
    obtain rfl : w = w' := Option.some.inj (hk.symm.trans hw')
    exact InstructionSet.valid_iff.mpr ⟨i, hi.admits, hi.packed⟩
  · intro resolve ws hws
    obtain ⟨hlookups, houtcome⟩ := assemble_of_spells Word.text
      (fun w hw labels => Encoding.spells_word labels (hws w hw)) resolve
    exact ⟨houtcome, hlookups, Image.words_image ws⟩

/-- One word of each class, with a resolver that would answer any question. -/
theorem assembled_words_are_valid_words_classes :
    let ws : List Word := [0xFFFF, 0x13F0, 0x2007, 0x300D, 0x47F1, 0x4F00, 0x51FF]
    let src : Text := "push 32767\ncopy 3,15\njmp\ncmp\niosr 7,15\nioex 7\nsys cmd 255"
    Program.disassembly ws = src ∧ (∀ w ∈ ws, w.Valid) ∧
      (assemble .standard (fun _ => some "0") src).outcome = .ok ws ∧
      (assemble .standard (fun _ => some "0") src).lookups = [] := by
  intro ws src
  have hsrc : Program.disassembly ws = src := by
    decide +kernel
  have hp : (assemble .standard (fun _ => some "0") src).outcome = .ok ws := by
    decide +kernel
  have hvalid := assembled_words_are_valid_words.1 (fun _ => some "0") src ws hp
  have h := assembled_words_are_valid_words.2 (fun _ => some "0") ws hvalid
  rw [hsrc] at h
  exact ⟨hsrc, hvalid, h.1, h.2.1⟩

end B100
