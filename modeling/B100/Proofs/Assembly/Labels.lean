import B100.Proofs.Assembly.Outcome
import B100.Proofs.Text.Ascii
import B100.Proofs.Word.Fields

/-! # Label resolution

The two passes agree on addresses. A label stands for the number of instruction lines before its
last definition, a push of the label carries that number, and the word at that address is the word
of the first instruction line after the definition. An address that does not fit is refused.
-/

namespace B100

def Line.isLabel (l : Line) : Bool := l.kind == .label

def Line.Defines (l : Line) (name : Text) : Prop := l.kind = .label ∧ l.label = name

instance (l : Line) (name : Text) : Decidable (l.Defines name) :=
  inferInstanceAs (Decidable (_ ∧ _))

namespace Source

/-- The lines before and after the last definition of a label. -/
structure LastDefinition (name : Text) (lines before after : List Line) : Prop where
  split : ∃ d : Line, d.Defines name ∧ lines = before ++ d :: after
  last : ∀ d ∈ after, ¬ d.Defines name

variable {name : Text} {lines before after : List Line}

theorem exists_lastDefinition (h : ∃ d ∈ lines, d.Defines name) :
    ∃ before after, LastDefinition name lines before after := by
  induction lines with
  | nil => simp at h
  | cons l ls ih =>
    by_cases hls : ∃ d ∈ ls, d.Defines name
    · obtain ⟨before, after, ⟨d, hd, rfl⟩, hlast⟩ := ih hls
      exact ⟨l :: before, after, ⟨d, hd, rfl⟩, hlast⟩
    · obtain ⟨d, hm, hd⟩ := h
      rcases List.mem_cons.mp hm with rfl | hm
      · exact ⟨[], ls, ⟨d, hd, rfl⟩, fun e he hde => hls ⟨e, he, hde⟩⟩
      · exact absurd ⟨d, hm, hd⟩ hls

theorem size_eq_length_filter (lines : List Line) :
    size lines = (lines.filter Line.isInstruction).length :=
  List.countP_eq_length_filter

theorem size_append (xs ys : List Line) : size (xs ++ ys) = size xs + size ys :=
  List.countP_append

theorem bindingsFrom_append (address : Nat) (xs ys : List Line) :
    bindingsFrom address (xs ++ ys) =
      bindingsFrom address xs ++ bindingsFrom (address + size xs) ys := by
  induction xs generalizing address with
  | nil => rfl
  | cons l xs ih =>
    have hsize : size (l :: xs) = size xs + if l.isInstruction then 1 else 0 := List.countP_cons
    cases hk : l.kind <;>
      simp [bindingsFrom, hk, ih, hsize, Line.isInstruction, Nat.add_assoc, Nat.add_comm]

theorem map_fst_bindingsFrom (address : Nat) (lines : List Line) :
    (bindingsFrom address lines).map Prod.fst = (lines.filter Line.isLabel).map Line.label := by
  induction lines generalizing address with
  | nil => rfl
  | cons l lines ih => cases hk : l.kind <;> simp [bindingsFrom, Line.isLabel, hk, ih]

theorem exists_defines_of_mem_bindingsFrom {address : Nat} {b : Text × Nat}
    (h : b ∈ bindingsFrom address lines) : ∃ d ∈ lines, d.Defines b.1 := by
  have hname := List.mem_map_of_mem (f := Prod.fst) h
  rw [map_fst_bindingsFrom] at hname
  obtain ⟨d, hd, hn⟩ := List.mem_map.mp hname
  obtain ⟨hd, hk⟩ := List.mem_filter.mp hd
  exact ⟨d, hd, by simpa [Line.isLabel] using hk, hn⟩

theorem getElem?_foldl_insert {bindings : List (Text × Nat)} (table : Labels)
    (h : ∀ b ∈ bindings, b.1 ≠ name) :
    (bindings.foldl (fun table (n, address) => table.insert n (address : Int)) table)[name]? =
      table[name]? := by
  induction bindings generalizing table with
  | nil => rfl
  | cons b bindings ih =>
    have hb : b.1 ≠ name := h b List.mem_cons_self
    rw [List.foldl_cons, ih _ fun c hc => h c (List.mem_cons_of_mem _ hc)]
    simp [Std.ExtTreeMap.getElem?_insert, hb]

theorem getElem?_foldl_bindingsFrom {address : Nat} (table : Labels)
    (h : ∀ d ∈ lines, ¬ d.Defines name) :
    ((bindingsFrom address lines).foldl
      (fun table (n, address) => table.insert n (address : Int)) table)[name]? = table[name]? := by
  apply getElem?_foldl_insert
  rintro b hb rfl
  obtain ⟨d, hd, hn⟩ := exists_defines_of_mem_bindingsFrom hb
  exact h d hd hn

theorem labels_of_undefined (h : ∀ d ∈ lines, ¬ d.Defines name) : (labels lines)[name]? = none := by
  rw [labels, bindings, getElem?_foldl_bindingsFrom _ h]
  rfl

theorem LastDefinition.address (h : LastDefinition name lines before after) :
    (labels lines)[name]? = some (size before : Int) := by
  obtain ⟨⟨d, ⟨hk, rfl⟩, rfl⟩, hlast⟩ := h
  have hd : bindingsFrom (0 + size before) (d :: after) =
      (d.label, size before) :: bindingsFrom (size before) after := by
    simp [bindingsFrom, hk]
  rw [labels, bindings, bindingsFrom_append, hd, List.foldl_append, List.foldl_cons,
    getElem?_foldl_bindingsFrom _ hlast]
  simp

theorem exists_lastDefinition_of_labels {address : Int} (h : (labels lines)[name]? = some address) :
    ∃ before after, LastDefinition name lines before after ∧ address = size before := by
  by_cases hd : ∃ d ∈ lines, d.Defines name
  · obtain ⟨before, after, hb⟩ := exists_lastDefinition hd
    exact ⟨before, after, hb, Option.some.inj (h.symm.trans hb.address)⟩
  · have hn := labels_of_undefined fun d hm hdef => hd ⟨d, hm, hdef⟩
    simp [hn] at h

theorem labels_eq_none_iff :
    (labels lines)[name]? = none ↔ ∀ d ∈ lines, ¬ d.Defines name := by
  constructor
  · intro h d hd hdef
    obtain ⟨before, after, hlast⟩ := exists_lastDefinition ⟨d, hd, hdef⟩
    cases h.symm.trans hlast.address
  · exact labels_of_undefined

/-- The table binds each label of the lines to the number of instruction lines before its last
definition, and nothing else. -/
structure Tabulates (lines : List Line) (table : Labels) : Prop where
  bound : ∀ (name : Text) (address : Int), table[name]? = some address ↔
    ∃ before after, LastDefinition name lines before after ∧
      address = (before.filter Line.isInstruction).length
  unbound : ∀ name : Text, table[name]? = none ↔ ∀ d ∈ lines, ¬ d.Defines name

theorem tabulates (lines : List Line) : Tabulates lines (labels lines) where
  bound name address := by
    simp only [← size_eq_length_filter]
    constructor
    · exact exists_lastDefinition_of_labels
    · rintro ⟨before, after, h, rfl⟩
      exact h.address
  unbound _ := labels_eq_none_iff

theorem LastDefinition.filter_instruction (h : LastDefinition name lines before after) :
    lines.filter Line.isInstruction =
      before.filter Line.isInstruction ++ after.filter Line.isInstruction := by
  obtain ⟨⟨d, ⟨hk, -⟩, rfl⟩, -⟩ := h
  simp [Line.isInstruction, hk]

theorem LastDefinition.size_le (h : LastDefinition name lines before after) :
    size before ≤ size lines := by
  obtain ⟨⟨d, -, rfl⟩, -⟩ := h
  rw [size_append]
  exact Nat.le_add_right _ _

/-- The instruction at the address of a label is the first one after its last definition. -/
theorem LastDefinition.getElem?_filter (h : LastDefinition name lines before after) :
    (lines.filter Line.isInstruction)[size before]? = after.find? Line.isInstruction := by
  rw [h.filter_instruction, size_eq_length_filter, List.getElem?_append_right (Nat.le_refl _),
    Nat.sub_self, ← List.head?_eq_getElem?, List.head?_filter]

end Source

namespace Encoding

open Encoder

variable {e : Encoding} {resolve : Text → Option Text} {name operand : Text}

theorem short_label (name : Text) :
    Literal.short ("$lbl." ++ name) = .error (.malformed ("$lbl." ++ name)) := rfl

theorem any_isSpaceOrTab_label (name : Text) :
    (("$lbl." : Text) ++ name).any Text.isSpaceOrTab = name.any Text.isSpaceOrTab := rfl

theorem result_labelAddress (name : Text) :
    result resolve (e.labelAddress name) =
      match e.labels[name]? with
      | none => .error (.unboundLabel name)
      | some address =>
        if 0x7FFF < address then .error (.distantLabel name address) else .ok address := by
  unfold labelAddress
  cases e.labels[name]? with
  | none => rfl
  | some address => exact result_ite ..

theorem pushValue_label (name : Text) : e.pushValue ("$lbl." ++ name) = e.labelAddress name := by
  simp only [pushValue, short_label, Text.after?_append]

theorem result_push_label (ho : operand.trim = "$lbl." ++ name) :
    result resolve (e.push operand) =
      if name.any Text.isSpaceOrTab then .error .pushOperands
      else (result resolve (e.labelAddress name)).map (e.isa.tag .push ||| Word.ofInt ·) := by
  simp only [push, ho, any_isSpaceOrTab_label, pushValue_label]
  rw [result_ite]
  split
  · simp [Except.bind]
  · rw [result_bind]
    cases result resolve (e.labelAddress name) <;> rfl

end Encoding

namespace Assembly

open Encoder

variable {isa : InstructionSet} {resolve : Text → Option Text} {src operand name : Text} {l : Line}

theorem word_push_label (hs : Statement.ofText l.text = .push operand)
    (ho : operand.trim = "$lbl." ++ name) :
    word isa resolve src l =
      (if name.any Text.isSpaceOrTab then .error .pushOperands
        else (result resolve ((encoding isa src).labelAddress name)).map
          (isa.tag .push ||| Word.ofInt ·)).mapError (⟨l.number, ·⟩) := by
  rw [word_eq, Encoding.instruction, hs]
  exact congrArg _ (Encoding.result_push_label ho)

theorem word_push_label_of_labels {address : Nat} (hs : Statement.ofText l.text = .push operand)
    (ho : operand.trim = "$lbl." ++ name) (hn : name.any Text.isSpaceOrTab = false)
    (ha : (Source.labels (Source.lines src))[name]? = some (address : Int)) :
    word isa resolve src l =
      if 0x7FFF < address then .error ⟨l.number, .distantLabel name address⟩
      else .ok (isa.tag .push ||| Word.ofInt address) := by
  have he : (encoding isa src).labels[name]? = some (address : Int) := ha
  rw [word_push_label hs ho, hn, Encoding.result_labelAddress, he]
  by_cases hlt : 0x7FFF < address
  · have hi : (0x7FFF : Int) < address := by omega
    simp [hlt, hi, Except.map, Except.mapError]
  · have hi : ¬ (0x7FFF : Int) < address := by omega
    simp [hlt, hi, Except.map, Except.mapError]

variable (isa resolve src)

/-- The assembly fails. If no instruction line before the line at index `i` fails, it fails at that
line and with a fault of the given kind. -/
def FailsBy (i : Nat) (l : Line) (kind : Kind) : Prop :=
  ∃ e, (assemble isa resolve src).outcome = .error e ∧
    ((∀ m ∈ (Source.instructions src).take i, ∃ w, word isa resolve src m = .ok w) →
      e.line = l.number ∧ e.fault.kind = kind)

variable {isa resolve src}

theorem failsBy_of_word_eq_error {i : Nat} (fault : Fault)
    (hl : (Source.instructions src)[i]? = some l)
    (hw : word isa resolve src l = .error ⟨l.number, fault⟩) :
    FailsBy isa resolve src i l fault.kind := by
  cases ho : (assemble isa resolve src).outcome with
  | ok p =>
    obtain ⟨w, -, hok⟩ := getElem?_of_outcome_eq_ok ho hl
    simp [hw] at hok
  | error e =>
    refine ⟨e, ho, fun hbefore => ?_⟩
    obtain ⟨j, m, hm, he, hj⟩ := outcome_eq_error_iff.mp ho
    obtain rfl : j = i := by
      rcases Nat.lt_trichotomy j i with hlt | heq | hgt
      · have hmem : m ∈ (Source.instructions src).take i :=
          List.mem_of_getElem? (by rw [List.getElem?_take_of_lt hlt, hm])
        obtain ⟨w, hok⟩ := hbefore m hmem
        simp [he] at hok
      · exact heq
      · have hmem : l ∈ (Source.instructions src).take j :=
          List.mem_of_getElem? (by rw [List.getElem?_take_of_lt hgt, hl])
        obtain ⟨w, hok⟩ := hj l hmem
        simp [hw] at hok
    obtain rfl : l = m := by simpa [hl] using hm
    obtain rfl : e = ⟨l.number, fault⟩ := by simpa [hw] using he.symm
    exact ⟨rfl, rfl⟩

/-- An operand of two words is refused before its label is looked up. -/
theorem failsBy_push_label {i : Nat} (fault : Fault) (hl : (Source.instructions src)[i]? = some l)
    (hs : Statement.ofText l.text = .push operand) (ho : operand.trim = "$lbl." ++ name)
    (hw : name.any Text.isSpaceOrTab = false →
      word isa resolve src l = .error ⟨l.number, fault⟩) :
    FailsBy isa resolve src i l
      (if name.any Text.isSpaceOrTab then .syntaxError else fault.kind) := by
  cases hn : name.any Text.isSpaceOrTab with
  | true =>
    apply failsBy_of_word_eq_error .pushOperands hl
    rw [word_push_label hs ho, hn]
    rfl
  | false => exact failsBy_of_word_eq_error fault hl (hw hn)

theorem any_isSpaceOrTab_of_word_eq_ok {w : Word} (hs : Statement.ofText l.text = .push operand)
    (ho : operand.trim = "$lbl." ++ name) (hw : word isa resolve src l = .ok w) :
    name.any Text.isSpaceOrTab = false := by
  rw [word_push_label hs ho] at hw
  cases hn : name.any Text.isSpaceOrTab <;> simp_all [Except.mapError]

theorem word_push_label_eq_ok {w : Word} (hs : Statement.ofText l.text = .push operand)
    (ho : operand.trim = "$lbl." ++ name) (hw : word isa resolve src l = .ok w) :
    ∃ before after, Source.LastDefinition name (Source.lines src) before after ∧
      Source.size before ≤ 0x7FFF ∧ w = isa.tag .push ||| Word.ofInt (Source.size before) := by
  have hn := any_isSpaceOrTab_of_word_eq_ok hs ho hw
  cases ha : (Source.labels (Source.lines src))[name]? with
  | none =>
    have he : (encoding isa src).labels[name]? = none := ha
    rw [word_push_label hs ho, hn, Encoding.result_labelAddress, he] at hw
    simp [Except.map, Except.mapError] at hw
  | some address =>
    obtain ⟨before, after, hb, rfl⟩ := Source.exists_lastDefinition_of_labels ha
    rw [word_push_label_of_labels hs ho hn ha] at hw
    split at hw
    · cases hw
    · exact ⟨before, after, hb, by omega, (Except.ok.inj hw).symm⟩

end Assembly

open Assembly

/-- Labels resolve to the address of their last definition, before or after the push, and are never
cut short: an address of more than 15 bits and a label without definition are errors. A name with a
space or a tab is no operand of a push and an error of its own. -/
theorem push_label_resolution (resolve : Text → Option Text) (src operand name : Text) (i : Nat)
    (l : Line) (hl : (Source.instructions src)[i]? = some l)
    (hs : Statement.ofText l.text = .push operand) (ho : operand.trim = "$lbl." ++ name) :
    (∀ p, (assemble .standard resolve src).outcome = .ok p →
      ∃ before after, Source.LastDefinition name (Source.lines src) before after ∧
        Source.size before ≤ 0x7FFF ∧ Source.size before ≤ p.length ∧
        (∃ w, p[i]? = some w ∧ w.toNat = 0x8000 + Source.size before) ∧
        (Source.size before < p.length → ∃ m w, after.find? Line.isInstruction = some m ∧
          p[Source.size before]? = some w ∧ word .standard resolve src m = .ok w)) ∧
    (∀ before after, Source.LastDefinition name (Source.lines src) before after →
      0x7FFF < Source.size before → FailsBy .standard resolve src i l
        (if name.any Text.isSpaceOrTab then .syntaxError else .outOfRange)) ∧
    ((∀ d ∈ Source.lines src, ¬ d.Defines name) → FailsBy .standard resolve src i l
        (if name.any Text.isSpaceOrTab then .syntaxError else .unknownLabel)) := by
  refine ⟨fun p hp => ?_, fun before after hb hlt => ?_, fun hd => ?_⟩
  · obtain ⟨w, hw, hok⟩ := getElem?_of_outcome_eq_ok hp hl
    obtain ⟨before, after, hb, hle, rfl⟩ := word_push_label_eq_ok hs ho hok
    have hsize : Source.size before ≤ p.length := length_of_outcome_eq_ok hp ▸ hb.size_le
    refine ⟨before, after, hb, hle, hsize, ⟨_, hw, ?_⟩, fun hlt => ?_⟩
    · have hn := Word.toNat_ofInt (n := Source.size before) (by omega) (by omega)
      have hw := Word.toNat_or_of_lt (w := Word.ofInt (Source.size before)) (by omega)
      exact hw.trans (by omega)
    · have hlen : Source.size before < (Source.instructions src).length := by
        rwa [Source.length_instructions, ← length_of_outcome_eq_ok hp]
      have hm := hb.getElem?_filter
      rw [show (Source.lines src).filter Line.isInstruction = Source.instructions src from rfl,
        List.getElem?_eq_getElem hlen] at hm
      obtain ⟨w, hw, hok⟩ := getElem?_of_outcome_eq_ok hp (List.getElem?_eq_getElem hlen)
      exact ⟨_, w, hm.symm, hw, hok⟩
  · apply failsBy_push_label (.distantLabel name (Source.size before)) hl hs ho
    intro hn
    rw [word_push_label_of_labels hs ho hn hb.address, if_pos hlt]
  · apply failsBy_push_label (.unboundLabel name) hl hs ho
    intro hn
    have he : (encoding .standard src).labels[name]? = none := Source.labels_of_undefined hd
    rw [word_push_label hs ho, hn, Encoding.result_labelAddress, he]
    rfl

/-- A push between two definitions of its label, with a line too short to count. -/
theorem push_label_resolution_between :
    let src : Text := ":a\nadd\npush $lbl.a\nx\n:a\nsub\n"
    let p : Program := [0x3000, 0x8002, 0x3001]
    (assemble .standard (fun _ => none) src).outcome = .ok p ∧
      ∃ before after, Source.LastDefinition "a" (Source.lines src) before after ∧
        ∃ w, p[1]? = some w ∧ w.toNat = 0x8000 + Source.size before := by
  intro src p
  have hp : (assemble .standard (fun _ => none) src).outcome = .ok p := by
    decide +kernel
  obtain ⟨before, after, hb, -, -, hw, -⟩ :=
    (push_label_resolution (fun _ => none) src "$lbl.a" "a" 1 ⟨"push $lbl.a", 3, .instruction⟩
      (by decide) (by decide) (by decide)).1 p hp
  exact ⟨hp, before, after, hb, hw⟩

/-- A label without definition is not always reported as unknown: its name may have a space. -/
theorem not_failsBy_unknownLabel_of_space :
    let src : Text := "push $lbl.a b"
    let l : Line := ⟨src, 1, .instruction⟩
    (Source.instructions src)[0]? = some l ∧ Statement.ofText l.text = .push "$lbl.a b" ∧
      Text.trim "$lbl.a b" = "$lbl." ++ "a b" ∧ (∀ d ∈ Source.lines src, ¬ d.Defines "a b") ∧
      ¬ FailsBy .standard (fun _ => none) src 0 l .unknownLabel := by
  intro src l
  have hlines : Source.lines src = [l] := by
    decide
  refine ⟨by decide, by decide, by decide, fun d hd => ?_, ?_⟩
  · obtain rfl := List.mem_singleton.mp (hlines ▸ hd)
    rintro ⟨hk, -⟩
    cases hk
  · rintro ⟨e, he, hkind⟩
    have hsyntax : (assemble .standard (fun _ => none) src).outcome =
        .error ⟨1, .pushOperands⟩ := by
      decide +kernel
    obtain rfl := Except.error.inj (he.symm.trans hsyntax)
    cases (hkind (by simp)).2

end B100
