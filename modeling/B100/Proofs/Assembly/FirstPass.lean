import B100.Proofs.Assembly.Relocation
import B100.Proofs.Source.Renaming

/-! # The first pass

One loop over the lines makes the label table, counts the instructions and reports the definitions
as they come. For any lines, and with or without anyone to report to, it gives what `Source.labels`,
`Source.size` and `Source.bindings` say. In a source, no bound name is empty or ends in white space,
and a name that has a space or a tab in it cannot be pushed.
-/

namespace B100

open Text

/-- The first pass under way: the labels and the instructions so far, and what has been made of the
reports. -/
structure FirstPass (σ : Type) where
  labels : Labels
  count : Nat
  log : σ

namespace FirstPass

variable {σ : Type}

def tell (report? : Option (σ → Text × Nat → σ)) (log : σ) (definition : Text × Nat) : σ :=
  match report? with
  | some report => report log definition
  | none => log

def step (report? : Option (σ → Text × Nat → σ)) (p : FirstPass σ) (l : Line) : FirstPass σ :=
  match l.kind with
  | .comment => p
  | .label =>
    { p with
      labels := p.labels.insert l.label p.count
      log := tell report? p.log (l.label, p.count) }
  | .instruction => { p with count := p.count + 1 }

def run (report? : Option (σ → Text × Nat → σ)) (log : σ) (lines : List Line) : FirstPass σ :=
  lines.foldl (step report?) ⟨∅, 0, log⟩

end FirstPass

namespace Source

/-- What a first pass over the lines has to give: a label table, the count of the instructions, and
the definitions as they came. -/
structure Scans (lines : List Line) (table : Labels) (count : Nat)
    (definitions : List (Text × Nat)) : Prop extends Tabulates lines table where
  counted : count = (lines.filter Line.isInstruction).length
  names : definitions.map Prod.fst = (lines.filter Line.isLabel).map Line.label
  placed : ∀ before d after, lines = before ++ d :: after → d.isLabel = true →
    definitions[(before.filter Line.isLabel).length]? =
      some (d.label, (before.filter Line.isInstruction).length)
  ascending : definitions.Pairwise (·.2 ≤ ·.2)
  bounded : ∀ b ∈ definitions, b.2 ≤ count
  replayed : definitions.foldl (fun t (name, address) => t.insert name (address : Int)) ∅ = table

variable {lines before after : List Line} {l : Line} {address : Nat} {name : Text}

theorem size_cons_of_instruction (h : l.kind = .instruction) (lines : List Line) :
    size (l :: lines) = size lines + 1 :=
  List.countP_cons_of_pos (by simp [Line.isInstruction, h])

theorem size_cons_of_ne (h : l.kind ≠ .instruction) (lines : List Line) :
    size (l :: lines) = size lines :=
  List.countP_cons_of_neg (by simp [Line.isInstruction, h])

theorem length_bindingsFrom (address : Nat) (lines : List Line) :
    (bindingsFrom address lines).length = (lines.filter Line.isLabel).length := by
  rw [← List.length_map, map_fst_bindingsFrom, List.length_map]

theorem getElem?_bindings (h : l.kind = .label) :
    (bindings (before ++ l :: after))[(before.filter Line.isLabel).length]? =
      some (l.label, size before) := by
  rw [bindings, bindingsFrom_append, List.getElem?_append_right (length_bindingsFrom _ _).le,
    length_bindingsFrom, Nat.sub_self]
  simp [bindingsFrom, h]

theorem address_of_mem_bindingsFrom {b : Text × Nat} (h : b ∈ bindingsFrom address lines) :
    address ≤ b.2 ∧ b.2 ≤ address + size lines := by
  induction lines generalizing address with
  | nil => cases h
  | cons l lines ih =>
    cases hk : l.kind with
    | comment =>
      simp only [bindingsFrom, hk] at h
      rw [size_cons_of_ne (by simp [hk])]
      exact ih h
    | label =>
      simp only [bindingsFrom, hk] at h
      rw [size_cons_of_ne (by simp [hk])]
      rcases List.mem_cons.mp h with rfl | h
      · exact ⟨Nat.le_refl _, Nat.le_add_right _ _⟩
      · exact ih h
    | instruction =>
      simp only [bindingsFrom, hk] at h
      rw [size_cons_of_instruction hk]
      have := ih h
      omega

theorem pairwise_bindingsFrom (address : Nat) (lines : List Line) :
    (bindingsFrom address lines).Pairwise (·.2 ≤ ·.2) := by
  induction lines generalizing address with
  | nil => exact .nil
  | cons l lines ih =>
    cases hk : l.kind with
    | comment => simpa [bindingsFrom, hk] using ih address
    | label =>
      simp only [bindingsFrom, hk]
      exact .cons (fun b hb => (address_of_mem_bindingsFrom hb).1) (ih address)
    | instruction => simpa [bindingsFrom, hk] using ih (address + 1)

theorem scans (lines : List Line) :
    Scans lines (labels lines) (size lines) (bindings lines) where
  toTabulates := tabulates lines
  counted := size_eq_length_filter lines
  names := map_fst_bindingsFrom 0 lines
  placed := by
    rintro before d after rfl hd
    rw [← size_eq_length_filter]
    exact getElem?_bindings (by simpa [Line.isLabel] using hd)
  ascending := pairwise_bindingsFrom 0 lines
  bounded b hb := by simpa using (address_of_mem_bindingsFrom hb).2
  replayed := rfl

end Source

namespace FirstPass

open Source

variable {σ : Type}

/-- The loop from any point on. Table, count and log move together: each definition is bound and
reported with the count that the loop has reached. -/
theorem foldl_step (report? : Option (σ → Text × Nat → σ)) (p : FirstPass σ) (lines : List Line) :
    lines.foldl (step report?) p =
      { labels := (bindingsFrom p.count lines).foldl
          (fun t (name, address) => t.insert name (address : Int)) p.labels
        count := p.count + size lines
        log := (bindingsFrom p.count lines).foldl (tell report?) p.log } := by
  induction lines generalizing p with
  | nil => rfl
  | cons l lines ih =>
    rw [List.foldl_cons, ih]
    -- One step of the loop unfolds one step of `bindingsFrom` at the address `p.count`.
    cases hk : l.kind with
    | comment => simp [step, bindingsFrom, hk, size_cons_of_ne]
    | label => simp [step, bindingsFrom, hk, size_cons_of_ne]
    | instruction =>
      simp [step, bindingsFrom, hk, size_cons_of_instruction, Nat.add_assoc, Nat.add_comm]

theorem run_eq (report? : Option (σ → Text × Nat → σ)) (log : σ) (lines : List Line) :
    run report? log lines =
      ⟨Source.labels lines, size lines, (bindings lines).foldl (tell report?) log⟩ := by
  rw [run, foldl_step, Nat.zero_add]
  rfl

theorem foldl_tell_none (log : σ) (bs : List (Text × Nat)) :
    bs.foldl (tell none) log = log := by
  induction bs with
  | nil => rfl
  | cons b bs ih => exact ih

end FirstPass

namespace Source

variable {src name : Text} {before after : List Line} {l : Line}

theorem bindings_skip (h : l.kind = .comment) :
    bindings (before ++ l :: after) = bindings (before ++ after) := by
  simp [bindings, bindingsFrom_append, bindingsFrom, h]

theorem labels_skip (h : l.kind = .comment) :
    labels (before ++ l :: after) = labels (before ++ after) := by
  rw [labels, bindings_skip h, ← labels]

theorem size_skip (h : l.kind = .comment) :
    size (before ++ l :: after) = size (before ++ after) := by
  rw [size_append, size_append, size_cons_of_ne (by simp [h])]

theorem ofNumber_eq_comment {n : Int} (hlabel : n ≠ LineKind.label.number)
    (hinstruction : n ≠ LineKind.instruction.number) : LineKind.ofNumber n = .comment := by
  rw [LineKind.ofNumber, if_neg hlabel, if_neg hinstruction]

theorem name_of_defines (hl : l ∈ lines src) (h : l.Defines name) :
    name ≠ [] ∧ ∀ g ∈ name.glyphs.getLast?, g.isBlank = false := by
  obtain ⟨hkind, rfl⟩ := h
  obtain ⟨⟨raw, i⟩, -, rfl⟩ := List.mem_map.mp hl
  have hkind : LineKind.ofTrimmed raw.trim = .label := hkind
  obtain ⟨name, htext, hne⟩ := exists_name_of_label hkind
  have hname : (Line.ofRaw raw i).label = name := by
    simp [Line.label, Line.ofRaw, htext]
  have htrim : (":" ++ name : Text).trim = ":" ++ name := by
    rw [← htext, trim_trim]
  have hlast := (trim_eq_self_iff.mp htrim).2
  rw [glyphs_ascii_append visible_colon.ascii,
    List.getLast?_append_of_ne_nil _ (glyphs_ne_nil hne)] at hlast
  rw [hname]
  exact ⟨hne, hlast⟩

end Source

theorem Text.ne_append_blank {s : Text} (h : ∀ g ∈ s.glyphs.getLast?, g.isBlank = false)
    (front : Text) {c : Char} (hc : isBlankChar c = true) :
    s ≠ front ++ String.utf8EncodeChar c := by
  rintro rfl
  have hlast := getLast?_glyphs_eq_char_iff.mpr (List.suffix_append front (String.utf8EncodeChar c))
  cases (h _ hlast).symm.trans hc

namespace Encoding

variable {isa : InstructionSet} {labels labels' : Labels} {name : Text}

theorem push_of_spaced (e : Encoding) {operand : Text}
    (h : operand.trim.any isSpaceOrTab = true) : e.push operand = throw .pushOperands := by
  simp only [push, h]
  rfl

/-- No line is encoded differently for what a name with a space or a tab is bound to. A push of the
name is refused before the table is looked at. -/
theorem instruction_congr_of_spaced (hname : name.any isSpaceOrTab = true)
    (h : ∀ n ≠ name, labels'[n]? = labels[n]?) (text : Text) :
    instruction ⟨isa, labels'⟩ text = instruction ⟨isa, labels⟩ text := by
  by_cases hs : (Statement.ofText text).label? = some name
  · obtain ⟨operand, hpush, ho⟩ := Statement.label?_eq_some_iff.mp hs
    have hspaced : operand.trim.any isSpaceOrTab = true := by
      rw [ho, any_isSpaceOrTab_label, hname]
    simp only [instruction, hpush, statement, push_of_spaced _ hspaced]
  · apply statement_congr
    rintro n hn
    exact h n fun heq => hs (heq ▸ hn)

end Encoding

open Source

/-- The first pass over any lines counts the instructions and binds each name to the count before
its last label line. It reports the label lines in order, with addresses that never fall and never
pass the count, and the table can be made again from the reports. Without anyone to report to, the
table and the count are the same. In a source, no bound name is empty or ends in white space, and
one with a space or a tab in it cannot be pushed. -/
theorem first_pass_binds_labels_to_their_last_lines :
    (∀ lines : List Line, Scans lines (labels lines) (size lines) (bindings lines)) ∧
    (∀ (lines : List Line) (σ : Type) (report : σ → Text × Nat → σ) (log : σ),
      FirstPass.run (some report) log lines =
        ⟨labels lines, size lines, (bindings lines).foldl report log⟩ ∧
      FirstPass.run none log lines = ⟨labels lines, size lines, log⟩) ∧
    (∀ (before after : List Line) (text : Text) (number kind : Int),
      kind ≠ LineKind.label.number → kind ≠ LineKind.instruction.number →
      let l : Line := ⟨text, number, .ofNumber kind⟩
      labels (before ++ l :: after) = labels (before ++ after) ∧
        size (before ++ l :: after) = size (before ++ after) ∧
        bindings (before ++ l :: after) = bindings (before ++ after)) ∧
    (∀ (src name : Text) (address : Int), (labels (lines src))[name]? = some address →
      name ≠ [] ∧ ∀ front c, isBlankChar c = true → name ≠ front ++ String.utf8EncodeChar c) ∧
    (∀ name : Text, name.any isSpaceOrTab = true →
      (∀ (e : Encoding) (operand : Text), operand.trim = "$lbl." ++ name →
        e.push operand = throw .pushOperands) ∧
      ∀ (isa : InstructionSet) (table table' : Labels), (∀ n ≠ name, table'[n]? = table[n]?) →
        ∀ text : Text,
          Encoding.instruction ⟨isa, table'⟩ text = Encoding.instruction ⟨isa, table⟩ text) := by
  refine ⟨scans, fun lines σ report log => ⟨FirstPass.run_eq .., ?_⟩, ?_, ?_, ?_⟩
  · rw [FirstPass.run_eq, FirstPass.foldl_tell_none]
  · intro before after text number kind hlabel hinstruction l
    have hkind : l.kind = .comment := ofNumber_eq_comment hlabel hinstruction
    exact ⟨labels_skip hkind, size_skip hkind, bindings_skip hkind⟩
  · intro src name address h
    obtain ⟨before, after, ⟨⟨d, hd, hlines⟩, -⟩, -⟩ := exists_lastDefinition_of_labels h
    have hmem : d ∈ lines src := by simp [hlines]
    obtain ⟨hne, hlast⟩ := name_of_defines hmem hd
    exact ⟨hne, fun front c hc => Text.ne_append_blank hlast front hc⟩
  · intro name hname
    refine ⟨fun e operand ho => e.push_of_spaced ?_, fun isa table table' h text => ?_⟩
    · rw [ho, Encoding.any_isSpaceOrTab_label, hname]
    · exact Encoding.instruction_congr_of_spaced hname h text

example : (labels (lines (utf8 ":a b\nadd\n:a b")))[utf8 "a b"]? = some 1 := by decide +kernel

end B100
