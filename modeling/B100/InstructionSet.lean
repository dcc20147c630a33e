import B100.Word
import Std.Data.ExtTreeMap

/-! # Instruction sets

An instruction set gives each instruction class the tag in the top bits of its words, and the
mnemonics of the classes that have several their codes. `InstructionSet.classOf?` reads the class
back from a word.
-/

namespace B100

inductive Class where
  | push
  | copy
  | jump
  | alu
  | io
  | sys
  deriving DecidableEq, Repr

namespace Class

def all : List Class := [push, copy, jump, alu, io, sys]

def number : Class → Nat
  | push => 0
  | copy => 1
  | jump => 2
  | alu => 3
  | io => 4
  | sys => 5

def ofNumber? (n : Int) : Option Class := all.find? fun c => c.number == n

def name : Class → Text
  | push => "push"
  | copy => "copy"
  | jump => "jump"
  | alu => "alu"
  | io => "io"
  | sys => "sys"

/-- The name of the class with a number; other numbers name no class. -/
def nameOfNumber (n : Int) : Text :=
  match ofNumber? n with
  | some c => c.name
  | none => "unknown"

end Class

/-- Mnemonics with their codes. -/
abbrev Codes := Std.ExtTreeMap Text Word

def Codes.ofStrings (codes : List (String × Word)) : Codes :=
  .ofList (codes.map fun (mnemonic, code) => (Text.utf8 mnemonic, code))

structure InstructionSet where
  /-- The tag of a class, if the set has the class. -/
  tag? : Class → Option Word
  alu : Codes
  jump : Codes
  io : Codes
  /-- The bits that are set in every system command. -/
  sysFlag : Word

namespace InstructionSet

/-- The tag of a class; a missing class has no bits of its own. -/
def tag (isa : InstructionSet) (c : Class) : Word := (isa.tag? c).getD 0

/-- The instruction set of the B100. -/
def standard : InstructionSet where
  tag?
    | .push => some 0x8000
    | .copy => some 0x1000
    | .jump => some 0x2000
    | .alu => some 0x3000
    | .io => some 0x4000
    | .sys => some 0x5000
  alu := .ofStrings
    [("add", 0), ("sub", 1), ("and", 2), ("or", 3), ("xor", 4), ("not", 5), ("neg", 6), ("inc", 7),
      ("dec", 8), ("shl", 9), ("shr", 10), ("rol", 11), ("ror", 12), ("cmp", 13)]
  jump := .ofStrings
    [("jgt", 1), ("jeq", 2), ("jge", 3), ("jlt", 4), ("jne", 5), ("jle", 6), ("jmp", 7)]
  io := .ofStrings [("ioex", 0x0800), ("iosr", 0x0001), ("iogr", 0x0000)]
  sysFlag := 0x0100

instance : Inhabited InstructionSet := ⟨standard⟩

/-- Does a word carry the tag of this class in its top four bits? -/
def hasTag (isa : InstructionSet) (w : Word) (c : Class) : Bool :=
  c != .push && isa.tag? c == some (w &&& 0xF000)

/-- The class of a word, when the classes other than push are tried in the given order. -/
def classAmong? (isa : InstructionSet) (order : List Class) (w : Word) : Option Class :=
  if w &&& 0x8000 != 0 then some .push else order.find? (isa.hasTag w)

/-- The class of a word: push if its top bit is set, else the class whose tag it carries. -/
def classOf? (isa : InstructionSet) (w : Word) : Option Class := isa.classAmong? Class.all w

/-- A change to an instruction set. -/
inductive Change where
  | tag (c : Class) (tag : Option Word)
  | alu (mnemonic : Text) (code : Option Word)
  | jump (mnemonic : Text) (code : Option Word)
  | io (mnemonic : Text) (code : Option Word)
  | sysFlag (flag : Word)
  deriving DecidableEq, Repr

/-- Binds a mnemonic to a code, or removes it. -/
def update (codes : Codes) (mnemonic : Text) : Option Word → Codes
  | some code => codes.insert mnemonic code
  | none => codes.erase mnemonic

def change (isa : InstructionSet) : Change → InstructionSet
  | .tag c tag => { isa with tag? := fun d => if d = c then tag else isa.tag? d }
  | .alu m code => { isa with alu := update isa.alu m code }
  | .jump m code => { isa with jump := update isa.jump m code }
  | .io m code => { isa with io := update isa.io m code }
  | .sysFlag flag => { isa with sysFlag := flag }

def patch (isa : InstructionSet) (changes : List Change) : InstructionSet :=
  changes.foldl change isa

end InstructionSet

end B100
