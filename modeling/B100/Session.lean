import B100.Assembly
import B100.FileTree.Basic

/-! # Sessions

An assembler in use: it keeps its instruction set, its layers of settings and the labels of the last
source, and can be told to report its steps. Every source is assembled afresh; nothing of an earlier
one can reach the next.
-/

namespace B100

structure Session where
  isa : InstructionSet
  layers : List (Option Settings)
  labels : Labels := ∅
  tracing : Bool := false

namespace Session

def resolver (s : Session) : Layer := .stack (s.layers.map Layer.ofTable?)

/-- What a session tells of assembling a source. -/
structure Report where
  outcome : Except SourceError Program
  labels : Labels
  events : List Event

inductive Step where
  | assemble (src : Text)
  | labels
  | label (name : Text)
  | bindLabel (name : Text) (address : Int)
  | trace (on : Bool)
  | set (layer : Nat) (key value : Text)
  | lookup (key : Text)
  | patch (changes : List InstructionSet.Change)

inductive Answer where
  | assembled (report : Report)
  | labels (table : Labels)
  | label (address : Option Int)
  | tracing (on : Bool)
  | settings (s : Settings)
  | value (v : Option Text)
  | isa (isa : InstructionSet)

/-- Replaces the labels by those of the source, whether or not it assembles. -/
def assemble (s : Session) (src : Text) : Session × Report :=
  let a := B100.assemble s.isa s.resolver.lookup src
  ({ s with labels := a.labels },
    { outcome := a.outcome, labels := a.labels, events := if s.tracing then a.events else [] })

/-- Assembles a file, given what came of reading it. The labels stay if it could not be read. -/
def assembleFile (s : Session) (reading : Except FileError Text) :
    Session × Except FileError Report :=
  match reading with
  | .error e => (s, .error e)
  | .ok src => let (t, report) := s.assemble src; (t, .ok report)

/-- Binds a key in one layer; a layer that is absent stays so. -/
def set (s : Session) (layer : Nat) (key value : Text) : Session :=
  { s with layers := s.layers.modify layer (Option.map (·.set key value)) }

def step (s : Session) : Step → Session × Answer
  | .assemble src => let (t, report) := s.assemble src; (t, .assembled report)
  | .labels => (s, .labels s.labels)
  | .label name => (s, .label s.labels[name]?)
  | .bindLabel name address =>
    let labels := s.labels.insert name address
    ({ s with labels }, .labels labels)
  | .trace on => ({ s with tracing := on }, .tracing on)
  | .set layer key value =>
    let t := s.set layer key value
    (t, .settings ((t.layers[layer]?.join).getD ∅))
  | .lookup key => (s, .value (s.resolver.lookup key))
  | .patch changes => let isa := s.isa.patch changes; ({ s with isa }, .isa isa)

/-- The session after some steps, with the answers in order. -/
def steps (s : Session) : List Step → Session × List Answer
  | [] => (s, [])
  | next :: rest =>
    let (t, answer) := s.step next
    let (u, answers) := t.steps rest
    (u, answer :: answers)

end Session

end B100
