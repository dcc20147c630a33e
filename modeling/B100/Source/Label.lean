import B100.Source.Line
import Std.Data.ExtTreeMap

/-! # Labels

The first pass. A label is bound to the number of instruction lines before it, which is the address
of the instruction that follows. Instructions are counted, not read, so a wrong one still takes up
its address.
-/

namespace B100

/-- Label names with their addresses. -/
abbrev Labels := Std.ExtTreeMap Text Int

namespace Source

/-- The label lines with their addresses, when the first line has the given address. -/
def bindingsFrom (address : Nat) : List Line → List (Text × Nat)
  | [] => []
  | l :: ls =>
    match l.kind with
    | .comment => bindingsFrom address ls
    | .label => (l.label, address) :: bindingsFrom address ls
    | .instruction => bindingsFrom (address + 1) ls

def bindings (lines : List Line) : List (Text × Nat) := bindingsFrom 0 lines

/-- The label table: the last definition of a name counts. -/
def labels (lines : List Line) : Labels :=
  (bindings lines).foldl (fun table (name, address) => table.insert name address) ∅

/-- How many words the lines take up. -/
def size (lines : List Line) : Nat := lines.countP Line.isInstruction

end Source

end B100
