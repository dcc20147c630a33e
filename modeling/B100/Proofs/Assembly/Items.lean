import B100.Proofs.Assembly.FirstError

/-! # Items of a source

What a source says: its labels and its statements, each statement with the number of its line.
Everything else in a source is layout, and an assembly depends on the items alone.
-/

namespace B100

inductive Item where
  | label (name : Text)
  | instruction (s : Statement) (line : Int)

def Line.item? (l : Line) : Option Item :=
  match l.kind with
  | .comment => none
  | .label => some (.label l.label)
  | .instruction => some (.instruction (Statement.ofText l.text) l.number)

def Line.statement (l : Line) : Statement × Int := (Statement.ofText l.text, l.number)

namespace Item

def statement? : Item → Option (Statement × Int)
  | label _ => none
  | instruction s line => some (s, line)

/-- The labels with their addresses, when the first item has the given address. -/
def bindingsFrom (address : Nat) : List Item → List (Text × Nat)
  | [] => []
  | label name :: is => (name, address) :: bindingsFrom address is
  | instruction _ _ :: is => bindingsFrom (address + 1) is

def renumber (f : Int → Int) : Item → Item
  | label name => label name
  | instruction s line => instruction s (f line)

theorem map_renumber_id (is : List Item) : is.map (renumber id) = is := by
  have h : renumber id = id := by
    funext i
    cases i <;> rfl
  rw [h, List.map_id]

theorem bindingsFrom_map_renumber (f : Int → Int) (address : Nat) (is : List Item) :
    bindingsFrom address (is.map (renumber f)) = bindingsFrom address is := by
  induction is generalizing address with
  | nil => rfl
  | cons i is ih => cases i <;> simp [bindingsFrom, renumber, ih]

theorem filterMap_statement?_map_renumber (f : Int → Int) (is : List Item) :
    (is.map (renumber f)).filterMap statement? =
      (is.filterMap statement?).map (Prod.map id f) := by
  induction is with
  | nil => rfl
  | cons i is ih =>
    cases i with
    | label name => exact ih
    | instruction s line => exact congrArg ((s, f line) :: ·) ih

end Item

namespace Source

def items (src : Text) : List Item := (lines src).filterMap Line.item?

theorem bindings_eq_items (src : Text) :
    bindings (lines src) = Item.bindingsFrom 0 (items src) := by
  have h : ∀ (ls : List Line) (address : Nat),
      bindingsFrom address ls = Item.bindingsFrom address (ls.filterMap Line.item?) := by
    intro ls
    induction ls with
    | nil => intro address; rfl
    | cons l ls ih =>
      intro address
      cases hk : l.kind <;>
        simp [bindingsFrom, Line.item?, hk, Item.bindingsFrom, ih]
  exact h (lines src) 0

theorem map_statement_instructions (src : Text) :
    (instructions src).map Line.statement = (items src).filterMap Item.statement? := by
  unfold instructions items
  induction lines src with
  | nil => rfl
  | cons l ls ih =>
    cases hk : l.kind <;>
      simp [List.filterMap_cons, Line.isInstruction, Line.item?, hk,
        Item.statement?, Line.statement, ih]

end Source

def SourceError.renumber (f : Int → Int) (e : SourceError) : SourceError :=
  { e with line := f e.line }

namespace Assembly

def renumber (f : Int → Int) (a : Assembly) : Assembly :=
  { a with outcome := a.outcome.mapError (SourceError.renumber f) }

theorem collect_map_mapError (f : SourceError → SourceError)
    (encoded : List (List Lookup × Except SourceError Word)) :
    collect (encoded.map (Prod.map id (Except.mapError f))) =
      Prod.map id (Except.mapError f) (collect encoded) := by
  induction encoded with
  | nil => rfl
  | cons x encoded ih =>
    obtain ⟨asked, e | w⟩ := x
    · rfl
    · change cons (asked, .ok w) (collect (encoded.map (Prod.map id (Except.mapError f)))) =
        Prod.map id (Except.mapError f) (cons (asked, .ok w) (collect encoded))
      rw [ih]
      obtain ⟨later, e | p⟩ := collect encoded <;> rfl

end Assembly

namespace Encoding

def numbered (e : Encoding) (resolve : Text → Option Text) (x : Statement × Int) :
    List Lookup × Except SourceError Word :=
  let (lookups, result) := (e.statement x.1).run.run resolve
  (lookups, result.mapError (⟨x.2, ·⟩))

theorem line_eq_numbered (e : Encoding) (resolve : Text → Option Text) (l : Line) :
    e.line resolve l = e.numbered resolve l.statement := rfl

theorem numbered_renumber (e : Encoding) (resolve : Text → Option Text) (f : Int → Int)
    (x : Statement × Int) :
    e.numbered resolve (Prod.map id f x) =
      Prod.map id (Except.mapError (SourceError.renumber f)) (e.numbered resolve x) := by
  obtain ⟨s, n⟩ := x
  rcases h : (e.statement s).run.run resolve with ⟨lookups, fault | w⟩ <;>
    simp [numbered, h, Except.mapError, SourceError.renumber]

end Encoding

namespace Assembly

variable {isa : InstructionSet} {resolve : Text → Option Text} {src src' : Text} {f : Int → Int}

theorem bindings_of_items (h : Source.items src' = (Source.items src).map (Item.renumber f)) :
    Source.bindings (Source.lines src') = Source.bindings (Source.lines src) := by
  rw [Source.bindings_eq_items, h, Item.bindingsFrom_map_renumber, Source.bindings_eq_items]

theorem statements_of_items (h : Source.items src' = (Source.items src).map (Item.renumber f)) :
    (Source.instructions src').map Line.statement =
      ((Source.instructions src).map Line.statement).map (Prod.map id f) := by
  rw [Source.map_statement_instructions, h, Item.filterMap_statement?_map_renumber,
    Source.map_statement_instructions]

theorem encoding_of_items (h : Source.items src' = (Source.items src).map (Item.renumber f)) :
    encoding isa src' = encoding isa src := by
  rw [encoding, encoding, Source.labels, bindings_of_items h, ← Source.labels]

def encoded (isa : InstructionSet) (resolve : Text → Option Text) (src : Text) :
    List (List Lookup × Except SourceError Word) :=
  (Source.instructions src).map ((encoding isa src).line resolve)

theorem encoded_eq_map_statement? (isa : InstructionSet) (resolve : Text → Option Text)
    (src : Text) : encoded isa resolve src =
      ((Source.items src).filterMap Item.statement?).map ((encoding isa src).numbered resolve) := by
  rw [← Source.map_statement_instructions, List.map_map]
  rfl

theorem assemble_eq (isa : InstructionSet) (resolve : Text → Option Text) (src : Text) :
    assemble isa resolve src =
      { labels := Source.labels (Source.lines src)
        bindings := Source.bindings (Source.lines src)
        lookups := (collect (encoded isa resolve src)).1
        outcome := (collect (encoded isa resolve src)).2 } := rfl

theorem encoded_of_items (h : Source.items src' = (Source.items src).map (Item.renumber f)) :
    encoded isa resolve src' = (encoded isa resolve src).map
      (Prod.map id (Except.mapError (SourceError.renumber f))) := by
  rw [encoded_eq_map_statement?, encoded_eq_map_statement?, encoding_of_items h, h,
    Item.filterMap_statement?_map_renumber, List.map_map, List.map_map]
  exact List.map_congr_left fun x _ => Encoding.numbered_renumber _ resolve f x

theorem assemble_of_items (h : Source.items src' = (Source.items src).map (Item.renumber f)) :
    assemble isa resolve src' = (assemble isa resolve src).renumber f := by
  rw [assemble_eq, assemble_eq, encoded_of_items h, collect_map_mapError, Source.labels,
    bindings_of_items h, ← Source.labels]
  rfl

theorem word_of_items (h : Source.items src' = (Source.items src).map (Item.renumber f))
    {l l' : Line} (hl : l'.statement = Prod.map id f l.statement) :
    word isa resolve src' l' = (word isa resolve src l).mapError (SourceError.renumber f) := by
  rw [word, word, encoding_of_items h, Encoding.line_eq_numbered, hl, Encoding.numbered_renumber,
    ← Encoding.line_eq_numbered]
  rfl

theorem FirstError.of_items (h : Source.items src' = (Source.items src).map (Item.renumber f))
    {e : SourceError} {i : Nat} {l : Line} (hfirst : FirstError isa resolve src e i l) :
    ∃ l', FirstError isa resolve src' (e.renumber f) i l' ∧
      l'.statement = Prod.map id f l.statement := by
  have hs : ∀ j : Nat, (Source.instructions src')[j]?.map Line.statement =
      (Source.instructions src)[j]?.map fun m => Prod.map id f m.statement := by
    intro j
    have hj := congrArg (·[j]?) (statements_of_items h)
    simpa [Function.comp_def] using hj
  have hi := hs i
  rw [hfirst.line] at hi
  obtain ⟨l', hl', hstatement⟩ := Option.map_eq_some_iff.mp hi
  refine ⟨l', ⟨hl', ?_, fun m' hm' => ?_⟩, hstatement⟩
  · rw [word_of_items h hstatement, hfirst.error]
    rfl
  · obtain ⟨j, hj⟩ := List.mem_iff_getElem?.mp hm'
    have hlt : j < i := by
      have hlen := (List.getElem?_eq_some_iff.mp hj).1
      rw [List.length_take] at hlen
      omega
    rw [List.getElem?_take_of_lt hlt] at hj
    have hm := hs j
    rw [hj] at hm
    obtain ⟨m, hm, hmm⟩ := Option.map_eq_some_iff.mp hm.symm
    have hmem : m ∈ (Source.instructions src).take i :=
      List.mem_of_getElem? (by rw [List.getElem?_take_of_lt hlt, hm])
    obtain ⟨w, hw⟩ := hfirst.first m hmem
    refine ⟨w, ?_⟩
    rw [word_of_items h hmm.symm, hw]
    rfl

end Assembly

end B100
