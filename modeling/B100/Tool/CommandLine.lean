import B100.Tool.Request

/-! # The command line

Options come in a long form, `--name` or `--name=value`, and in a short form of letters after one
dash. An option that wants a value can take the next argument, which is then passed over.
-/

namespace B100

inductive UsageError where
  | bareDashes
  | unknownLong (name : Text)
  | unknownShort (letter : Text)
  | missingLong (name : Text)
  | missingShort (letter : Text)
  deriving DecidableEq, Repr

def UsageError.message : UsageError → Text
  | bareDashes => "long option without a string"
  | unknownLong name => "--" ++ name ++ ": unknown option"
  | unknownShort letter => "-" ++ letter ++ ": unknown option"
  | missingLong name => "--" ++ name ++ ": missing option parameter"
  | missingShort letter => "-" ++ letter ++ ": missing option parameter"

/-- Arguments that end the tool abruptly. -/
inductive Crash where
  | loneDash
  | valueBeforeAny
  deriving DecidableEq, Repr

def Crash.message : Crash → Text
  | loneDash => "runtime error: index out of range [1] with length 1"
  | valueBeforeAny => "interface conversion: interface \x7b\x7d is nil, not string"

inductive ArgumentError where
  | usage (e : UsageError)
  | crash (c : Crash)
  deriving DecidableEq, Repr

inductive Switch where
  | help
  | verbose
  | dump
  deriving DecidableEq, Repr

inductive Parameter where
  | output
  | config
  deriving DecidableEq, Repr

inductive CommandOption where
  | switch (s : Switch)
  | parameter (p : Parameter)
  deriving DecidableEq, Repr

namespace CommandOption

def ofName? (name : Text) : Option CommandOption :=
  [(Text.utf8 "help", switch .help), ("output", parameter .output), ("config", parameter .config),
    ("verbose", switch .verbose), ("dump", switch .dump)].lookup name

def ofLetter? (letter : Text) : Option CommandOption :=
  [(Text.utf8 "h", switch .help), ("o", parameter .output), ("c", parameter .config),
    ("v", switch .verbose), ("d", switch .dump)].lookup letter

end CommandOption

structure Arguments where
  help : Bool := false
  verbose : Bool := false
  dump : Bool := false
  output : Option Text := none
  config : Option Text := none
  source : Text := []
  deriving DecidableEq, Repr

namespace Arguments

def set (a : Arguments) : Switch → Bool → Arguments
  | .help, on => { a with help := on }
  | .verbose, on => { a with verbose := on }
  | .dump, on => { a with dump := on }

def value? (a : Arguments) : Parameter → Option Text
  | .output => a.output
  | .config => a.config

def give (a : Arguments) : Parameter → Text → Arguments
  | .output, value => { a with output := some value }
  | .config, value => { a with config := some value }

/-- Words for on and off, in any case. -/
def truth? (word : Text) : Option Bool :=
  let word := word.lower
  if [Text.utf8 "true", "yes", "on", "1", "t"].contains word then some true
  else if [Text.utf8 "false", "no", "off", "0", "f"].contains word then some false
  else none

/-- Turns a switch on, unless the next argument says how it is to be. Also tells what is left of the
next argument. -/
def setFromNext (a : Arguments) (s : Switch) (next : Option Text) : Arguments × Option Text :=
  match next.bind truth? with
  | some on => (a.set s on, some [])
  | none => (a.set s true, next)

/-- Reads an option in its long form. -/
def long (a : Arguments) (option : Text) (next : Option Text) :
    Except ArgumentError (Arguments × Option Text) :=
  let (name, rest) := option.cut (· == '='.toUInt8)
  let value := rest.getD []
  match CommandOption.ofName? name with
  | none => .error (.usage (.unknownLong name))
  | some (.switch s) =>
    match truth? value with
    | some on => .ok (a.set s on, next)
    | none => .ok (a.setFromNext s next)
  | some (.parameter p) =>
    if !value.isEmpty then .ok (a.give p value, next)
    else
      match next with
      | some value => .ok (a.give p value, some [])
      | none => .error (.usage (.missingLong name))

/-- Reads one letter. A value after `=` belongs to it only if it is the only letter, and a parameter
takes one that way only if it has been given before. -/
def letter (value : Text) (alone : Bool) (state : Arguments × Option Text) (letter : Text) :
    Except ArgumentError (Arguments × Option Text) :=
  let (a, next) := state
  let own := alone && !value.isEmpty
  match CommandOption.ofLetter? letter with
  | none => .error (.usage (.unknownShort letter))
  | some (.switch s) =>
    if own then .ok (a.set s (truth? value == some true), next) else .ok (a.setFromNext s next)
  | some (.parameter p) =>
    if own then
      if (a.value? p).isSome then .ok (a.give p value, next) else .error (.crash .valueBeforeAny)
    else
      match next with
      | some value => .ok (a.give p value, some [])
      | none => .error (.usage (.missingShort letter))

/-- A letter as it is shown; a stray byte is shown as a replacement character. -/
def letterText : Glyph → Text
  | .char c => (Glyph.char c).bytes
  | .stray _ => (Glyph.char replacementChar).bytes

/-- Reads letters after a single dash. Without a value the whole text counts as letters. -/
def short (a : Arguments) (option : Text) (next : Option Text) :
    Except ArgumentError (Arguments × Option Text) :=
  let (name, rest) := option.cut (· == '='.toUInt8)
  let value := rest.getD []
  let letters := (if value.isEmpty then option else name).glyphs.map letterText
  letters.foldlM (letter value (letters.length == 1)) (a, next)

/-- Reads one argument, given the next; tells what is left of the next. -/
def argument (a : Arguments) (arg : Text) (next : Option Text) :
    Except ArgumentError (Arguments × Option Text) :=
  match arg.after? "--", arg.after? "-" with
  | some [], _ => .error (.usage .bareDashes)
  | some option, _ => a.long option next
  | none, some [] => .error (.crash .loneDash)
  | none, some option => a.short option next
  | none, none => .ok (if a.source.isEmpty then { a with source := arg } else a, next)

/-- Reads an argument and those after it. An argument that has been used up is empty. -/
def readFrom (a : Arguments) (arg : Text) : List Text → Except ArgumentError Arguments
  | [] => (a.argument arg none).map Prod.fst
  | next :: rest => do
    let (b, left) ← a.argument arg (some next)
    b.readFrom (left.getD []) rest

def read : List Text → Except ArgumentError Arguments
  | [] => .ok {}
  | arg :: rest => readFrom {} arg rest

end Arguments

namespace CommandLine

/-- The items of a list with commas, without the blanks around them. -/
def items (s : Text) : List Text := ((s.splitOn ','.toUInt8).map Text.trim).filter (!·.isEmpty)

def request (a : Arguments) : Request where
  source := a.source
  output := a.output.getD []
  configs := items (a.config.getD [])
  verbose := a.verbose
  dump := a.dump

def help : Text :=
  "Usage:\n  syzasm [OPTIONS]... [SOURCE]\n\nMain options:\n" ++
  "\t-h, --help\tPrint this help message.\n" ++
  "\t-o, --output\tOutput file. Defaults to the source name with a .bin extension.\n" ++
  "\t-c, --config\tComma-separated list of config files resolving $conf keys.\n" ++
  "\t-v, --verbose\tPrint labels as they are found. (default: false)\n" ++
  "\t-d, --dump\tDump the label table and program to stderr. (default: false)\n" ++
  "\n\nPositional arguments:\n\tSOURCE\tSyzygy assembly source (.syz).\n\n"

/-- What the arguments ask for. -/
inductive Command where
  | crash (c : Crash)
  | usage (e : UsageError)
  | help (status : Nat)
  | run (r : Request)
  deriving DecidableEq, Repr

/-- The status of wrong usage. -/
def usageStatus : Nat := 1

def command (args : List Text) : Command :=
  if args.isEmpty then .help usageStatus
  else
    match Arguments.read args with
    | .error (.crash c) => .crash c
    | .error (.usage e) => .usage e
    | .ok a =>
      if a.help then .help 0
      else if a.source.isEmpty then .help usageStatus
      else .run (request a)

def usageComplaint (e : UsageError) : Text := "Error: " ++ e.message ++ "\n"

/-- The last line of a failed run. -/
def complaint (r : Request) (f : Failure) : Text := r.source ++ ": " ++ f.text ++ "\n"

/-- The whole tool; the result is its exit status. -/
def perform {m : Type → Type} [Monad m] (h : Host m) (args : List Text) : m (Except Crash Nat) := do
  match command args with
  | .crash c => return .error c
  | .usage e =>
    h.stderr (usageComplaint e)
    return .ok usageStatus
  | .help status =>
    h.stdout help
    return .ok status
  | .run r =>
    let failure? := (← r.perform h).map fun e => Failure.diagnostic e.diagnostic
    h.stderr ((failure?.map (complaint r)).getD [])
    return .ok (exitStatus failure?)

/-- What a finished tool leaves behind. -/
structure Exit extends Machine where
  status : Nat

def run (t : FileTree) (args : List Text) (mishap? : Option Mishap := none) : Except Crash Exit :=
  let (status, after) := (perform (Machine.host mishap?) args).run { tree := t }
  status.map (Exit.mk after)

end CommandLine

end B100
