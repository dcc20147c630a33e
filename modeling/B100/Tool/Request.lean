import B100.Session
import B100.Tool.Dump
import B100.Tool.Host

/-! # Requests

One run of the tool: load the settings, assemble the source, and write the image. Nothing is written
unless everything before has succeeded, and never over the source.
-/

namespace B100

structure Request where
  source : Text
  /-- The path of the image; if empty, it is made from that of the source. -/
  output : Text := []
  configs : List Text := []
  verbose : Bool := false
  dump : Bool := false
  deriving DecidableEq, Repr

inductive RunError where
  | settings (error : LoadError)
  | unread (path : Text) (error : FileError)
  | source (error : SourceError)
  | overwrites (output : Text)
  | unwritten (path : Text) (error : FileError)
  deriving DecidableEq, Repr

def FileError.cause (e : FileError) : Cause := { text := e.message, missingFile := e.isMissing }

namespace RunError

def fileDiagnostic (message : Text) (cause : Option Cause) : Diagnostic where
  code := Kind.fileError.code
  message := message
  cause := cause

def diagnostic : RunError → Diagnostic
  | settings error => fileDiagnostic "loading config" (some error.cause)
  | unread path error => fileDiagnostic ("reading " ++ path) (some error.cause)
  | source error => error.diagnostic
  | overwrites output => fileDiagnostic ("output " ++ output ++ " would overwrite the source") none
  | unwritten path error =>
    let activity : Text := if error.operation = .opening then "creating " else "writing "
    fileDiagnostic (activity ++ path) (some error.cause)

end RunError

/-- How a verbose run reports a step. -/
def Event.message : Event → Text
  | bound name address =>
    "Added " ++ name.quote ++ " to labels at instruction " ++ Text.ofNat address ++ ".\n"
  | fetched ⟨key, none⟩ => "Fetched " ++ key.quote ++ ", and got nothing.\n"
  | fetched ⟨key, some value⟩ => "Fetched " ++ key.quote ++ ", and got " ++ value.quote ++ ".\n"

variable {m : Type → Type} [Monad m]

def Program.write (h : Host m) (p : Program) (path : Text) : m (Option RunError) :=
  return (← h.write path p.image).map (.unwritten path)

namespace Request

def outputPath (r : Request) : Text := if r.output.isEmpty then Path.image r.source else r.output

/-- The steps of an assembly and, if it has succeeded, the dump that the request wants. -/
def report (r : Request) (a : Session.Report) : Text :=
  a.events.flatMap Event.message ++
    match a.outcome with
    | .ok p => if r.dump then Dump.labels a.labels ++ Dump.listing p else []
    | .error _ => []

/-- The assembler of a request. -/
def session (r : Request) (tables : List Settings) : Session where
  isa := .standard
  layers := tables.map some
  tracing := r.verbose

/-- All of a run before anything is written. -/
def build (h : Host m) (r : Request) : m (Except RunError Program) := do
  match ← h.load r.configs with
  | .error e => return .error (.settings e)
  | .ok tables =>
    match ((r.session tables).assembleFile (← h.read r.source)).2 with
    | .error e => return .error (.unread r.source e)
    | .ok a =>
      h.stderr (r.report a)
      return a.outcome.mapError .source

/-- A whole run; tells what it has failed with. -/
def perform (h : Host m) (r : Request) : m (Option RunError) := do
  match ← r.build h with
  | .error e => return some e
  | .ok p =>
    if ← h.same r.outputPath r.source then return some (.overwrites r.outputPath)
    else p.write h r.outputPath

/-- What a run leaves behind. -/
structure Result where
  tree : FileTree
  report : Text
  error? : Option RunError

def run (t : FileTree) (r : Request) (mishap? : Option Mishap := none) : Result :=
  let (error?, after) := (r.perform (Machine.host mishap?)).run { tree := t }
  ⟨after.tree, after.stderr, error?⟩

def Result.failure? (r : Result) : Option Failure := r.error?.map fun e => .diagnostic e.diagnostic

end Request

end B100
