import B100.Encoding.Instruction
import B100.Settings.Layer

/-! # Assembly

The whole assembler: split the source, bind its labels, encode its instructions against the complete
label table. The first line that fails decides the outcome, and then there is no program.
-/

namespace B100

/-- Everything that can be seen of assembling a source. -/
structure Assembly where
  labels : Labels
  /-- The label definitions in the order of the source. -/
  bindings : List (Text × Nat)
  /-- The questions put to the settings, up to the first line that fails. -/
  lookups : List Lookup
  outcome : Except SourceError Program

/-- A step worth reporting while a source is assembled. -/
inductive Event where
  | bound (name : Text) (address : Nat)
  | fetched (lookup : Lookup)
  deriving DecidableEq, Repr

namespace Assembly

def events (a : Assembly) : List Event :=
  a.bindings.map (fun (name, address) => .bound name address) ++ a.lookups.map .fetched

/-- Puts an encoded line in front of the lines after it. If it fails, they do not count. -/
def cons : List Lookup × Except SourceError Word → List Lookup × Except SourceError Program →
    List Lookup × Except SourceError Program
  | (lookups, .error e), _ => (lookups, .error e)
  | (lookups, .ok w), (later, outcome) => (lookups ++ later, outcome.map (w :: ·))

/-- The lookups and the outcome of encoded lines. -/
def collect (encoded : List (List Lookup × Except SourceError Word)) :
    List Lookup × Except SourceError Program :=
  encoded.foldr cons ([], .ok [])

end Assembly

/-- Assembles a source. -/
def assemble (isa : InstructionSet) (resolve : Text → Option Text) (src : Text) : Assembly :=
  let lines := Source.lines src
  let labels := Source.labels lines
  let encoded := (lines.filter Line.isInstruction).map (Encoding.line ⟨isa, labels⟩ resolve)
  let (lookups, outcome) := Assembly.collect encoded
  { labels, bindings := Source.bindings lines, lookups, outcome }

end B100
