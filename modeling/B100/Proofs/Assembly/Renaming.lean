import B100.Proofs.Assembly.Relocation
import B100.Proofs.Encoding.Lookups
import B100.Proofs.Source.Renaming

/-! # Names of labels

A label is bound by the identity of its name and by nothing else. If the labels of a source are
renamed and no two of them fall together, the source assembles to the same program or fails in the
same way, and its label table is the renamed one.
-/

namespace B100

open Text Encoder

namespace Item

variable (ρ : Text → Text)

theorem bindingsFrom_map_rename (address : Nat) (is : List Item) :
    bindingsFrom address (is.map (rename ρ)) = (bindingsFrom address is).map (Prod.map ρ id) := by
  induction is generalizing address with
  | nil => rfl
  | cons i is ih => cases i <;> simp [bindingsFrom, rename, ih]

theorem filterMap_statement?_map_rename (is : List Item) :
    (is.map (rename ρ)).filterMap statement? =
      (is.filterMap statement?).map (Prod.map (Statement.rename ρ) id) := by
  induction is with
  | nil => rfl
  | cons i is ih =>
    cases i with
    | label name => exact ih
    | instruction s line => exact congrArg ((s.rename ρ, line) :: ·) ih

theorem label_mem_of_mem_bindingsFrom {address : Nat} {is : List Item} {b : Text × Nat}
    (h : b ∈ bindingsFrom address is) : label b.1 ∈ is := by
  induction is generalizing address with
  | nil => cases h
  | cons i is ih =>
    cases i with
    | label name =>
      rcases List.mem_cons.mp h with rfl | h
      · exact List.mem_cons_self
      · exact List.mem_cons_of_mem _ (ih h)
    | instruction s line => exact List.mem_cons_of_mem _ (ih h)

end Item

namespace Source

variable {ρ : Text → Text} {src name : Text}

theorem ne_nil_of_mem_names (h : name ∈ names src) : name ≠ [] := by
  obtain ⟨item, hitem, hname⟩ := List.mem_filterMap.mp h
  obtain ⟨l, hl, hitem⟩ := List.mem_filterMap.mp hitem
  obtain ⟨⟨raw, i⟩, -, rfl⟩ := List.mem_map.mp hl
  cases hkind : LineKind.ofTrimmed raw.trim with
  | comment => simp [item?_of_comment hkind] at hitem
  | label =>
    obtain ⟨n, htext, hne⟩ := exists_name_of_label hkind
    rw [item?_of_label htext hne] at hitem
    cases hitem
    cases hname
    exact hne
  | instruction =>
    rw [item?_of_instruction hkind] at hitem
    cases hitem
    cases hs : Statement.ofText raw.trim with
    | push operand =>
      rw [hs] at hname
      exact (Operand.reference?_eq_some_iff.mp hname).2.1
    | _ => simp [hs, Item.name?, Statement.reference?] at hname

theorem mem_names_of_mem_bindings {b : Text × Nat} (h : b ∈ bindings (lines src)) :
    b.1 ∈ names src := by
  rw [bindings_eq_items] at h
  exact List.mem_filterMap.mpr ⟨_, Item.label_mem_of_mem_bindingsFrom h, rfl⟩

theorem exists_binding_of_labels {address : Int} (h : (labels (lines src))[name]? = some address) :
    ∃ b ∈ bindings (lines src), b.1 = name := by
  by_contra hnone
  have hall : ∀ b ∈ bindings (lines src), b.1 ≠ name := fun b hb hn => hnone ⟨b, hb, hn⟩
  rw [labels, getElem?_foldl_insert _ hall] at h
  simp at h

theorem labels_nil (src : Text) : (labels (lines src))[([] : Text)]? = none := by
  cases h : (labels (lines src))[([] : Text)]? with
  | none => rfl
  | some address =>
    obtain ⟨b, hb, hnil⟩ := exists_binding_of_labels h
    exact absurd hnil (ne_nil_of_mem_names (mem_names_of_mem_bindings hb))

/-- A table under other names gives a name what the table gave it, if no other name takes its
place. -/
theorem getElem?_foldl_insert_map {bs : List (Text × Nat)} {table table' : Labels}
    (hname : ∀ b ∈ bs, ρ b.1 = ρ name → b.1 = name) (h : table'[ρ name]? = table[name]?) :
    ((bs.map (Prod.map ρ id)).foldl
      (fun table (n, address) => table.insert n (address : Int)) table')[ρ name]? =
      (bs.foldl (fun table (n, address) => table.insert n (address : Int)) table)[name]? := by
  induction bs generalizing table table' with
  | nil => exact h
  | cons b bs ih =>
    rw [List.forall_mem_cons] at hname
    rw [List.map_cons, List.foldl_cons, List.foldl_cons]
    apply ih hname.2
    by_cases hb : b.1 = name
    · simp [hb]
    · have hρ : ρ b.1 ≠ ρ name := fun hρ => hb (hname.1 hρ)
      simp [Std.ExtTreeMap.getElem?_insert, hb, hρ, h]

namespace Renaming

variable (h : Renaming ρ src)

include h

theorem items : Source.items (rename ρ src) = (Source.items src).map (Item.rename ρ) :=
  items_rename h.isName

theorem bindings :
    Source.bindings (lines (rename ρ src)) =
      (Source.bindings (lines src)).map (Prod.map ρ id) := by
  rw [bindings_eq_items, h.items, Item.bindingsFrom_map_rename, bindings_eq_items]

theorem getElem?_labels (hname : name ∈ names src) :
    (labels (lines (rename ρ src)))[ρ name]? = (labels (lines src))[name]? := by
  rw [labels, h.bindings]
  refine getElem?_foldl_insert_map (fun b hb => ?_) rfl
  have hb := mem_names_of_mem_bindings hb
  exact h.injective _ hb _ hname (ne_nil_of_mem_names hb) (ne_nil_of_mem_names hname)

theorem labels_eq_some_iff {address : Int} :
    (labels (lines (rename ρ src)))[name]? = some address ↔
      ∃ n, (labels (lines src))[n]? = some address ∧ ρ n = name := by
  constructor
  · intro ha
    obtain ⟨b, hb, rfl⟩ := exists_binding_of_labels ha
    rw [h.bindings] at hb
    obtain ⟨c, hc, rfl⟩ := List.mem_map.mp hb
    exact ⟨c.1, (h.getElem?_labels (mem_names_of_mem_bindings hc)).symm.trans ha, rfl⟩
  · rintro ⟨n, ha, rfl⟩
    obtain ⟨b, hb, rfl⟩ := exists_binding_of_labels ha
    rw [h.getElem?_labels (mem_names_of_mem_bindings hb), ha]

end Renaming

end Source

namespace Encoding

variable {isa : InstructionSet} {labels labels' : Labels} {ρ : Text → Text} {s : Statement}

theorem statement_of_reference?_eq_none (hnil : labels[([] : Text)]? = none)
    (hnil' : labels'[([] : Text)]? = none) (h : s.reference? = none) :
    statement ⟨isa, labels'⟩ s = statement ⟨isa, labels⟩ s := by
  cases s with
  | push operand =>
    by_cases hspace : operand.trim.any isSpaceOrTab
    · simp only [statement, push, if_pos hspace]
      rfl
    · apply statement_congr
      rintro name hlabel
      obtain ⟨_, ⟨rfl⟩, ho⟩ := Statement.label?_eq_some_iff.mp hlabel
      rw [ho, any_isSpaceOrTab_label] at hspace
      have hname : name = [] := by
        by_contra hne
        have href : Operand.reference? operand.trim = some name :=
          Operand.reference?_eq_some_iff.mpr ⟨ho, hne, Bool.eq_false_iff.mpr hspace⟩
        cases h.symm.trans href
      rw [hname, hnil, hnil']
  | _ => rfl

theorem outcome_push_label {e : Encoding} {resolve : Text → Option Text} {operand name : Text}
    (ho : operand.trim = "$lbl." ++ name) (hn : name.any isSpaceOrTab = false) :
    outcome resolve (e.push operand) =
      match e.labels[name]? with
      | none => .error .unknownLabel
      | some address =>
        if 0x7FFF < address then .error .outOfRange
        else .ok (e.isa.tag .push ||| Word.ofInt address) := by
  rw [outcome, result_push_label ho, hn, result_labelAddress]
  cases e.labels[name]? with
  | none => rfl
  | some address =>
    simp only [Bool.false_eq_true, if_false]
    split <;> rfl

theorem lookups_push_label {e : Encoding} {resolve : Text → Option Text} {operand name : Text}
    (ho : operand.trim = "$lbl." ++ name) : lookups resolve (e.push operand) = [] := by
  have hasks : Asks 0 (e.push operand) := by
    simp only [push, ho, pushValue_label]
    exact .guard rfl ((e.asks_labelAddress name).bind_last fun _ => asks_pure _)
  exact List.length_eq_zero_iff.mp (Nat.le_zero.mp (hasks.length_le resolve))

/-- A label under another name makes no difference but for the name in a fault. -/
theorem outcome_statement_rename (hnil : labels[([] : Text)]? = none)
    (hnil' : labels'[([] : Text)]? = none)
    (h : ∀ n, s.reference? = some n → IsName (ρ n) ∧ labels'[ρ n]? = labels[n]?)
    (resolve : Text → Option Text) :
    lookups resolve (statement ⟨isa, labels'⟩ (s.rename ρ)) =
        lookups resolve (statement ⟨isa, labels⟩ s) ∧
      outcome resolve (statement ⟨isa, labels'⟩ (s.rename ρ)) =
        outcome resolve (statement ⟨isa, labels⟩ s) := by
  cases href : s.reference? with
  | none =>
    rw [Statement.rename_of_reference?_eq_none href,
      statement_of_reference?_eq_none hnil hnil' href]
    exact ⟨rfl, rfl⟩
  | some n =>
    obtain ⟨hname, haddress⟩ := h n href
    cases s with
    | push operand =>
      obtain ⟨ho, -, hn⟩ := Operand.reference?_eq_some_iff.mp href
      have ho' : (operand.within (Operand.rename ρ)).trim = "$lbl." ++ ρ n := by
        have hvalue : Operand.rename ρ operand.trim = "$lbl." ++ ρ n := by
          have href : Operand.reference? operand.trim = some n := href
          rw [Operand.rename, href]
        rw [trim_within, hvalue, hname.trim_append Source.visible_reference]
      constructor
      · rw [Statement.rename, statement, statement, lookups_push_label ho, lookups_push_label ho']
      · rw [Statement.rename, statement, statement, outcome_push_label ho hn,
          outcome_push_label ho' hname.unspaced, haddress]
    | _ => cases href

end Encoding

def SourceError.place (e : SourceError) : Int × Kind := (e.line, e.fault.kind)

theorem Encoding.numbered_rename {isa : InstructionSet} {labels labels' : Labels} {ρ : Text → Text}
    {s : Statement} (hnil : labels[([] : Text)]? = none) (hnil' : labels'[([] : Text)]? = none)
    (h : ∀ n, s.reference? = some n → IsName (ρ n) ∧ labels'[ρ n]? = labels[n]?)
    (resolve : Text → Option Text) (line : Int) :
    (numbered ⟨isa, labels'⟩ resolve (s.rename ρ, line)).1 =
        (numbered ⟨isa, labels⟩ resolve (s, line)).1 ∧
      (numbered ⟨isa, labels'⟩ resolve (s.rename ρ, line)).2.mapError SourceError.place =
        (numbered ⟨isa, labels⟩ resolve (s, line)).2.mapError SourceError.place := by
  obtain ⟨hlookups, houtcome⟩ := outcome_statement_rename hnil hnil' h resolve
  have hplace : ∀ r : Except Fault Word,
      (r.mapError (SourceError.mk line)).mapError SourceError.place =
        (r.mapError Fault.kind).mapError (line, ·) := by
    rintro (_ | _) <;> rfl
  exact ⟨hlookups, (hplace _).trans ((congrArg _ houtcome).trans (hplace _).symm)⟩

namespace Assembly

theorem collect_of_forall₂ {xs ys : List (List Lookup × Except SourceError Word)}
    (h : List.Forall₂ (fun x y => y.1 = x.1 ∧
      y.2.mapError SourceError.place = x.2.mapError SourceError.place) xs ys) :
    (collect ys).1 = (collect xs).1 ∧
      (collect ys).2.mapError SourceError.place = (collect xs).2.mapError SourceError.place := by
  induction h with
  | nil => exact ⟨rfl, rfl⟩
  | @cons x y xs ys hxy _ ih =>
    obtain ⟨lookups, e | w⟩ := x <;> obtain ⟨lookups', e' | w'⟩ := y
    · obtain ⟨rfl, he⟩ : lookups' = lookups ∧ e'.place = e.place := by
        simpa [Except.mapError] using hxy
      exact ⟨rfl, congrArg Except.error he⟩
    · simp [Except.mapError] at hxy
    · simp [Except.mapError] at hxy
    · obtain ⟨rfl, rfl⟩ : lookups' = lookups ∧ w' = w := by
        simpa [Except.mapError] using hxy
      have hmap : ∀ r : Except SourceError Program, (r.map (w' :: ·)).mapError SourceError.place =
          (r.mapError SourceError.place).map (w' :: ·) := by
        rintro (_ | _) <;> rfl
      refine ⟨congrArg (lookups' ++ ·) ih.1, ?_⟩
      change ((collect ys).2.map (w' :: ·)).mapError _ = ((collect xs).2.map (w' :: ·)).mapError _
      rw [hmap, ih.2, ← hmap]

variable {isa : InstructionSet} {resolve : Text → Option Text} {ρ : Text → Text} {src : Text}

theorem encoded_rename (h : Source.Renaming ρ src) :
    List.Forall₂ (fun x y => y.1 = x.1 ∧
        y.2.mapError SourceError.place = x.2.mapError SourceError.place)
      (encoded isa resolve src) (encoded isa resolve (Source.rename ρ src)) := by
  rw [encoded_eq_map_statement?, encoded_eq_map_statement?, h.items,
    Item.filterMap_statement?_map_rename, List.map_map, List.forall₂_map_left_iff,
    List.forall₂_map_right_iff, List.forall₂_same]
  rintro ⟨s, line⟩ hs
  obtain ⟨item, hitem, hs⟩ := List.mem_filterMap.mp hs
  have hreference : ∀ n, s.reference? = some n → n ∈ Source.names src := by
    intro n hn
    cases item with
    | label name => cases hs
    | instruction t k =>
      obtain ⟨rfl, rfl⟩ : t = s ∧ k = line := by simpa [Item.statement?] using hs
      exact List.mem_filterMap.mpr ⟨_, hitem, hn⟩
  exact Encoding.numbered_rename (Source.labels_nil src) (Source.labels_nil _)
    (fun n hn => ⟨h.isName n (hreference n hn) (Source.ne_nil_of_mem_names (hreference n hn)),
      h.getElem?_labels (hreference n hn)⟩) resolve line

end Assembly

open Assembly

/-- Labels are bound by the identity of their names. A source with its labels renamed assembles to
the same program or fails on the same line with a fault of the same kind, and its labels are the
renamed ones with the same addresses. Names are compared as they are spelled: a label has the
address of the last line that defines just this name. -/
theorem labels_are_bound_by_identity {ρ : Text → Text} {src : Text} (h : Source.Renaming ρ src)
    (isa : InstructionSet) (resolve : Text → Option Text) :
    (∀ p, (assemble isa resolve src).outcome = .ok p →
      (assemble isa resolve (Source.rename ρ src)).outcome = .ok p) ∧
    (∀ e, (assemble isa resolve src).outcome = .error e →
      ∃ e', (assemble isa resolve (Source.rename ρ src)).outcome = .error e' ∧
        e'.line = e.line ∧ e'.fault.kind = e.fault.kind) ∧
    (assemble isa resolve (Source.rename ρ src)).lookups = (assemble isa resolve src).lookups ∧
    (∀ (name : Text) address,
      (assemble isa resolve (Source.rename ρ src)).labels[name]? = some address ↔
        ∃ n, (assemble isa resolve src).labels[n]? = some address ∧ ρ n = name) ∧
    ∀ (n : Text) address, (assemble isa resolve src).labels[n]? = some address ↔
      ∃ before after, Source.LastDefinition n (Source.lines src) before after ∧
        address = Source.size before := by
  obtain ⟨hlookups, hplace⟩ := collect_of_forall₂ (encoded_rename h)
  have hplace : (assemble isa resolve (Source.rename ρ src)).outcome.mapError SourceError.place =
      (assemble isa resolve src).outcome.mapError SourceError.place := hplace
  refine ⟨fun p hp => ?_, fun e he => ?_, hlookups, fun name address => h.labels_eq_some_iff,
    fun n address => ⟨Source.exists_lastDefinition_of_labels, ?_⟩⟩
  · rw [hp] at hplace
    cases ho : (assemble isa resolve (Source.rename ρ src)).outcome with
    | ok q => simpa [ho, Except.mapError] using hplace
    | error e => simp [ho, Except.mapError] at hplace
  · rw [he] at hplace
    cases ho : (assemble isa resolve (Source.rename ρ src)).outcome with
    | ok q => simp [ho, Except.mapError] at hplace
    | error e' => exact ⟨e', rfl, by simpa [ho, Except.mapError, SourceError.place] using hplace⟩
  · rintro ⟨before, after, hlast, rfl⟩
    exact hlast.address

/-- Names that differ only in case are two labels, even if one takes over the name of the other. -/
theorem labels_are_bound_by_identity_case :
    let src : Text := ":Loop\nadd\n\t:loop \r\nPUSH \t$lbl.Loop\npush $lbl.loop"
    let src' : Text := ":loop\nadd\n\t:a.b:\u00e9 \r\nPUSH \t$lbl.loop\npush $lbl.a.b:\u00e9"
    let ρ : Text → Text := fun n => if n = "Loop" then "loop" else "a.b:\u00e9"
    let p : Program := [0x3000, 0x8000, 0x8001]
    Source.Renaming ρ src ∧ Source.rename ρ src = src' ∧
      (assemble .standard (fun _ => none) src).outcome = .ok p ∧
      (assemble .standard (fun _ => none) src').outcome = .ok p := by
  intro src src' ρ p
  have hnames : Source.names src =
      [Text.utf8 "Loop", Text.utf8 "loop", Text.utf8 "Loop", Text.utf8 "loop"] := by
    decide +kernel
  have hrenaming : Source.Renaming ρ src := by
    constructor
    · rw [hnames]
      decide +kernel
    · intro n _ _
      change IsName (if n = Text.utf8 "Loop" then _ else _)
      split
      · exact ⟨by decide, by decide, by decide, by decide⟩
      · exact ⟨by decide, by decide, by decide, by decide⟩
  have hsrc : Source.rename ρ src = src' := by
    decide +kernel
  have hp : (assemble .standard (fun _ => none) src).outcome = .ok p := by
    decide +kernel
  have hsame := (labels_are_bound_by_identity hrenaming .standard fun _ => none).1 p hp
  exact ⟨hrenaming, hsrc, hp, hsrc ▸ hsame⟩

end B100
