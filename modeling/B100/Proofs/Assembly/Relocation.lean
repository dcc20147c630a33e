import B100.Proofs.Assembly.Labels
import B100.Proofs.Source.Lines

/-! # Relocation

A source that follows another is moved on by the words of the first. Its lines and labels shift, and
of its words exactly those that push a label change.
-/

namespace B100

def Statement.label? : Statement → Option Text
  | push operand => operand.trim.after? "$lbl."
  | _ => none

theorem Statement.label?_eq_some_iff {s : Statement} {name : Text} :
    s.label? = some name ↔
      ∃ operand : Text, s = .push operand ∧ operand.trim = "$lbl." ++ name := by
  cases s <;> simp [label?, Text.after?_eq_some_iff]

namespace Encoding

/-- Of the labels, an encoding needs only the one that is pushed. -/
theorem statement_congr {isa : InstructionSet} {labels labels' : Labels} {s : Statement}
    (h : ∀ name, s.label? = some name → labels'[name]? = labels[name]?) :
    statement ⟨isa, labels'⟩ s = statement ⟨isa, labels⟩ s := by
  cases s with
  | push operand =>
    have hvalue : pushValue ⟨isa, labels'⟩ operand.trim = pushValue ⟨isa, labels⟩ operand.trim := by
      unfold pushValue
      split
      · rfl
      · split
        · next name hname =>
          simp only [labelAddress, h name hname]
        · rfl
    simp only [statement, push, hvalue]
  | copy operands => rfl
  | jump mnemonic => rfl
  | operation mnemonic => rfl
  | peripheral mnemonic operands => rfl
  | system operands => rfl
  | unknown mnemonic => rfl

end Encoding

namespace Source

theorem bindingsFrom_map_shift (k address : Nat) (ls : List Line) :
    bindingsFrom address (ls.map (Line.shift k)) = bindingsFrom address ls := by
  induction ls generalizing address with
  | nil => rfl
  | cons l ls ih =>
    have hkind : (l.shift k).kind = l.kind := rfl
    have hlabel : (l.shift k).label = l.label := rfl
    cases hk : l.kind <;> simp [bindingsFrom, hkind, hlabel, hk, ih]

theorem labels_map_shift (k : Nat) (ls : List Line) :
    labels (ls.map (Line.shift k)) = labels ls := by
  rw [labels, bindings, bindingsFrom_map_shift, ← bindings, ← labels]

/-- Lines that come later move their labels on and override those before. -/
theorem getElem?_labels_append (xs ys : List Line) (name : Text) :
    (labels (xs ++ ys))[name]? =
      ((labels ys)[name]?.map (· + (size xs : Int))).or (labels xs)[name]? := by
  by_cases hd : ∃ d ∈ ys, d.Defines name
  · obtain ⟨before, after, hlast⟩ := exists_lastDefinition hd
    have happend : LastDefinition name (xs ++ ys) (xs ++ before) after := by
      obtain ⟨⟨d, hdef, rfl⟩, hafter⟩ := hlast
      exact ⟨⟨d, hdef, by rw [List.append_assoc]⟩, hafter⟩
    rw [happend.address, hlast.address, size_append]
    simp [Int.add_comm]
  · have hnone : ∀ d ∈ ys, ¬ d.Defines name := fun d hm hdef => hd ⟨d, hm, hdef⟩
    rw [labels_of_undefined hnone, labels, bindings, bindingsFrom_append, List.foldl_append,
      getElem?_foldl_bindingsFrom _ hnone]
    rfl

variable {a : Text} (ha : a = [] ∨ a.getLast? = some newline) (b : Text)

include ha

theorem getElem?_labels_lines_append (name : Text) :
    (labels (lines (a ++ b)))[name]? =
      ((labels (lines b))[name]?.map (· + (size (lines a) : Int))).or
        (labels (lines a))[name]? := by
  rw [lines_append ha, getElem?_labels_append, labels_map_shift]

theorem instructions_append :
    instructions (a ++ b) =
      instructions a ++ (instructions b).map (Line.shift (lines a).length) := by
  rw [instructions, lines_append ha, List.filter_append, List.filter_map]
  rfl

end Source

namespace Assembly

variable {isa : InstructionSet} {resolve : Text → Option Text} {src src' : Text} {l l' : Line}

theorem word_congr {w : Word} (htext : l'.text = l.text)
    (h : ∀ name, (Statement.ofText l.text).label? = some name →
      (Source.labels (Source.lines src'))[name]? = (Source.labels (Source.lines src))[name]?)
    (hw : word isa resolve src l = .ok w) : word isa resolve src' l' = .ok w := by
  rw [word_eq_ok_iff] at hw ⊢
  rw [htext, Encoding.instruction, encoding, Encoding.statement_congr h]
  exact hw

theorem toNat_push {address : Nat} (h : address ≤ 0x7FFF) :
    (InstructionSet.standard.tag .push ||| Word.ofInt address).toNat = 0x8000 + address := by
  have hn := Word.toNat_ofInt (n := address) (by omega) (by omega)
  have hw := Word.toNat_or_of_lt (w := Word.ofInt address) (by omega)
  exact hw.trans (by omega)

theorem word_label_shift {w : Word} {name : Text} {n : Nat} (htext : l'.text = l.text)
    (hlabel : (Statement.ofText l.text).label? = some name)
    (hmove : ∀ address : Int, (Source.labels (Source.lines src))[name]? = some address →
      (Source.labels (Source.lines src'))[name]? = some (address + n) ∧ n + address ≤ 0x7FFF)
    (hw : word .standard resolve src l = .ok w) :
    ∃ w', word .standard resolve src' l' = .ok w' ∧ w'.toNat = w.toNat + n := by
  obtain ⟨operand, hs, ho⟩ := Statement.label?_eq_some_iff.mp hlabel
  have hn := any_isSpaceOrTab_of_word_eq_ok hs ho hw
  obtain ⟨before, after, hlast, hle, rfl⟩ := word_push_label_eq_ok hs ho hw
  obtain ⟨haddress, hfits⟩ := hmove _ hlast.address
  have haddress : (Source.labels (Source.lines src'))[name]? =
      some ((Source.size before + n : Nat) : Int) := by
    rw [haddress, Int.natCast_add]
  refine ⟨_, (word_push_label_of_labels (htext ▸ hs) ho hn haddress).trans (if_neg (by omega)), ?_⟩
  rw [toNat_push (by omega), toNat_push hle, Nat.add_assoc]

theorem exists_map_eq_ok {ls : List Line} {f g : Line → Except SourceError Word} {p : Program}
    {R : Line → Word → Word → Prop} (hp : ls.map f = p.map .ok)
    (h : ∀ l ∈ ls, ∀ w, f l = .ok w → ∃ w', g l = .ok w' ∧ R l w w') :
    ∃ r : Program, ls.map g = r.map .ok ∧ r.length = p.length ∧
      ∀ (k : Nat) l w, ls[k]? = some l → p[k]? = some w → ∃ w', r[k]? = some w' ∧ R l w w' := by
  induction ls generalizing p with
  | nil =>
    obtain rfl : p = [] := by simpa using hp.symm
    exact ⟨[], rfl, rfl, by simp⟩
  | cons l ls ih =>
    cases p with
    | nil => cases hp
    | cons w p =>
      obtain ⟨hl, hls⟩ := List.cons.inj hp
      obtain ⟨w', hw', hR⟩ := h l List.mem_cons_self w hl
      obtain ⟨r, hr, hlen, hk⟩ := ih hls fun m hm => h m (List.mem_cons_of_mem l hm)
      refine ⟨w' :: r, by simp [hw', hr], by simp [hlen], fun k m v hm hv => ?_⟩
      cases k with
      | zero =>
        obtain rfl : l = m := by simpa using hm
        obtain rfl : w = v := by simpa using hv
        exact ⟨w', rfl, hR⟩
      | succ k => exact hk k m v hm hv

variable {a b : Text} (ha : a = [] ∨ a.getLast? = some Source.newline)

include ha

theorem word_append_left {w : Word} (hdisjoint : ∀ name : Text,
      name ∈ Source.labels (Source.lines a) → name ∉ Source.labels (Source.lines b))
    (hw : word isa resolve a l = .ok w) : word isa resolve (a ++ b) l = .ok w := by
  refine word_congr rfl (fun name hlabel => ?_) hw
  obtain ⟨operand, hs, ho⟩ := Statement.label?_eq_some_iff.mp hlabel
  obtain ⟨before, after, hlast, -⟩ := word_push_label_eq_ok hs ho hw
  have hmem : name ∈ Source.labels (Source.lines a) := by
    rw [Std.ExtTreeMap.mem_iff_isSome_getElem?, hlast.address]
    rfl
  have hnone : (Source.labels (Source.lines b))[name]? = none :=
    Std.ExtTreeMap.getElem?_eq_none (hdisjoint name hmem)
  rw [Source.getElem?_labels_lines_append ha, hnone]
  rfl

theorem word_append_right {w : Word}
    (hfits : ∀ name, (Statement.ofText l.text).label? = some name →
      ∀ address, (Source.labels (Source.lines b))[name]? = some address →
        Source.size (Source.lines a) + address ≤ 0x7FFF)
    (hw : word .standard resolve b l = .ok w) (k : Nat) :
    ∃ w', word .standard resolve (a ++ b) (l.shift k) = .ok w' ∧ w'.toNat = w.toNat +
      if (Statement.ofText l.text).label?.isSome then Source.size (Source.lines a) else 0 := by
  have htext : (l.shift k).text = l.text := rfl
  cases hlabel : (Statement.ofText l.text).label? with
  | none =>
    refine ⟨w, word_congr htext (fun name hname => ?_) hw, rfl⟩
    cases hlabel.symm.trans hname
  | some name =>
    refine word_label_shift htext hlabel (fun address haddress => ⟨?_, ?_⟩) hw
    · rw [Source.getElem?_labels_lines_append ha, haddress]
      rfl
    · exact hfits name hlabel address haddress

end Assembly

open Assembly

/-- Concatenation relocates: lines and labels of the second source move on, and its words stay but
for those that push a label. -/
theorem concatenation_relocates (a b : Text) (ha : a = [] ∨ a.getLast? = some Source.newline) :
    Source.lines (a ++ b) =
      Source.lines a ++ (Source.lines b).map (Line.shift (Source.lines a).length) ∧
    (∀ name : Text, (Source.labels (Source.lines (a ++ b)))[name]? =
      ((Source.labels (Source.lines b))[name]?.map (· + (Source.size (Source.lines a) : Int))).or
        (Source.labels (Source.lines a))[name]?) ∧
    ∀ (resolve : Text → Option Text) (p q : Program),
      (assemble .standard resolve a).outcome = .ok p →
      (assemble .standard resolve b).outcome = .ok q →
      (∀ name : Text, name ∈ Source.labels (Source.lines a) →
        name ∉ Source.labels (Source.lines b)) →
      (∀ l ∈ Source.instructions b, ∀ name, (Statement.ofText l.text).label? = some name →
        ∀ address, (Source.labels (Source.lines b))[name]? = some address →
          Source.size (Source.lines a) + address ≤ 0x7FFF) →
      ∃ r, (assemble .standard resolve (a ++ b)).outcome = .ok (p ++ r) ∧ r.length = q.length ∧
        ∀ (k : Nat) l w, (Source.instructions b)[k]? = some l → q[k]? = some w →
          ∃ w', r[k]? = some w' ∧ w'.toNat = w.toNat +
            if (Statement.ofText l.text).label?.isSome then Source.size (Source.lines a)
            else 0 := by
  refine ⟨Source.lines_append ha b, Source.getElem?_labels_lines_append ha b, ?_⟩
  intro resolve p q hp hq hdisjoint hfits
  have hfirst : (Source.instructions a).map (word .standard resolve (a ++ b)) = p.map .ok := by
    rw [← outcome_eq_ok_iff.mp hp]
    apply List.map_congr_left
    intro l hl
    obtain ⟨i, hi⟩ := List.mem_iff_getElem?.mp hl
    obtain ⟨w, -, hw⟩ := getElem?_of_outcome_eq_ok hp hi
    rw [hw, word_append_left ha hdisjoint hw]
  obtain ⟨r, hr, hlen, hwords⟩ := exists_map_eq_ok (outcome_eq_ok_iff.mp hq) fun l hl w hw =>
    word_append_right ha (hfits l hl) hw (Source.lines a).length
  refine ⟨r, outcome_eq_ok_iff.mpr ?_, hlen, hwords⟩
  rw [Source.instructions_append ha, List.map_append, List.map_map, hfirst, List.map_append]
  exact congrArg _ hr

/-- A push in each of two sources, and only that of the second moves. -/
theorem concatenation_relocates_second :
    let a : Text := ":start\nadd\npush $lbl.start\n"
    let b : Text := "sub\npush $lbl.end\npush 5\n:end"
    let p : Program := [0x3000, 0x8000]
    let q : Program := [0x3001, 0x8003, 0x8005]
    (assemble .standard (fun _ => none) a).outcome = .ok p ∧
      (assemble .standard (fun _ => none) b).outcome = .ok q ∧
      ∃ r, (assemble .standard (fun _ => none) (a ++ b)).outcome = .ok (p ++ r) ∧
        ∃ w, r[1]? = some w ∧ w.toNat = 0x8005 := by
  intro a b p q
  have hp : (assemble .standard (fun _ => none) a).outcome = .ok p := by
    decide +kernel
  have hq : (assemble .standard (fun _ => none) b).outcome = .ok q := by
    decide +kernel
  have hsize : Source.size (Source.lines a) = 2 ∧ Source.size (Source.lines b) = 3 := by
    decide +kernel
  have hbindings : Source.bindings (Source.lines a) = [(("start" : Text), 0)] := by
    decide +kernel
  have hdisjoint : ∀ name : Text, name ∈ Source.labels (Source.lines a) →
      name ∉ Source.labels (Source.lines b) := by
    intro name hname
    obtain rfl : "start" = name := by
      simpa [Source.labels, hbindings, Std.ExtTreeMap.mem_insert] using hname
    decide +kernel
  have hfits : ∀ address (name : Text), (Source.labels (Source.lines b))[name]? = some address →
      Source.size (Source.lines a) + address ≤ 0x7FFF := by
    intro address name haddress
    obtain ⟨before, after, hlast, rfl⟩ := Source.exists_lastDefinition_of_labels haddress
    have hle := hlast.size_le
    omega
  obtain ⟨r, hr, -, hwords⟩ := (concatenation_relocates a b (.inr (by decide +kernel))).2.2
    (fun _ => none) p q hp hq hdisjoint fun l _ name _ address haddress =>
      hfits address name haddress
  obtain ⟨w, hw, hnat⟩ := hwords 1 ⟨"push $lbl.end", 2, .instruction⟩ 0x8003
    (by decide +kernel) rfl
  refine ⟨hp, hq, r, hr, w, hw, ?_⟩
  rw [hnat, hsize.1]
  rfl

end B100
