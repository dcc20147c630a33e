import B100.Settings.Document

/-! # Reading settings documents

A settings file is read line by line. Most lines stand alone: blank, a comment, a section header, or
an entry. The value of an entry can also go on over further lines, between quotes of three or
backticks, or after a backslash at the end of a line; the reader then remembers the unfinished
entry.
-/

namespace B100

namespace Reader

def isDelimiter (b : UInt8) : Bool := b == '='.toUInt8 || b == ':'.toUInt8

def isCommentMark (b : UInt8) : Bool := b == '#'.toUInt8 || b == ';'.toUInt8

def endsWith (s : Text) (b : UInt8) : Bool := s.getLast? == some b

def tripleQuote : Text := "\"\"\""

def backtick : Text := "`"

/-- The quote that opens a name. Three quotes open one only on a line long enough to close it. -/
def nameQuote? (line : Text) : Option Text :=
  if tripleQuote.isPrefixOf line && 6 < line.length then some tripleQuote
  else if ("\"" : Text).isPrefixOf line then some "\""
  else if backtick.isPrefixOf line then some backtick
  else none

/-- Splits an entry at its delimiter, into the name and what follows. -/
def entry (line : Text) : Except SettingsError (Text × Text) :=
  match nameQuote? line with
  | some mark =>
    match Text.cutText? (line.drop mark.length) mark with
    | none => .error (.unclosedName line)
    | some (name, rest) =>
      match rest.cut isDelimiter with
      | (_, none) => .error (.noDelimiter line)
      | (_, some value) => .ok (name.trim, value)
  | none =>
    match line.cut isDelimiter with
    | (_, none) => .error (.noDelimiter line)
    | ([], some _) => .error (.emptyName line)
    | (name, some value) => .ok (name.trim, value)

/-- The quote that opens a value that may span lines. -/
def valueQuote? (value : Text) : Option Text :=
  if tripleQuote.isPrefixOf value && 3 < value.length then some tripleQuote
  else if backtick.isPrefixOf value then some backtick
  else none

/-- Is the text between two of the given quotes, with no other inside? -/
def isQuotedBy (mark : UInt8) (s : Text) : Bool :=
  2 ≤ s.length && s.head? == some mark && endsWith s mark && !(s.drop 1).dropLast.contains mark

/-- Takes off a comment, the blanks around the value and a pair of quotes. -/
def plainValue (s : Text) : Text :=
  let value := (s.cut isCommentMark).1.trim
  if isQuotedBy '\''.toUInt8 value || isQuotedBy '"'.toUInt8 value then (value.drop 1).dropLast
  else value

/-- A value as far as its first line tells. -/
inductive Value where
  | complete (value : Text)
  | quoted (mark opening begun : Text)
  | continued (begun : Text)
  deriving DecidableEq, Repr

def Value.ofText (rest : Text) : Value :=
  let value := rest.trimLeft
  match valueQuote? value with
  | some mark =>
    let inner : Text := value.drop mark.length
    match inner.cutLastText? mark with
    | some (inside, _) => complete inside
    | none => quoted mark value inner
  | none =>
    let trimmed := value.trim
    if endsWith trimmed '\\'.toUInt8 then continued trimmed.dropLast
    else complete (plainValue trimmed)

end Reader

/-- An entry whose value is not finished. -/
inductive Unfinished where
  | quoted (name mark opening begun : Text)
  | continued (name begun : Text)
  deriving DecidableEq, Repr

structure Reader where
  document : Document
  /-- The section that entries go to. -/
  current : Text
  /-- The number of the next entry named `-`. -/
  count : Nat
  unfinished : Option Unfinished
  deriving DecidableEq, Repr

namespace Reader

def start : Reader where
  document := Document.addSection [] Document.defaultName
  current := Document.defaultName
  count := 1
  unfinished := none

/-- Finishes an entry. -/
def put (r : Reader) (name value : Text) : Except SettingsError Reader :=
  if name.isEmpty then .error .unnamedEntry
  else .ok { r with document := r.document.put r.current name.lower value, unfinished := none }

/-- Goes on in a section, which may have been begun before. -/
def header (r : Reader) (line : Text) : Except SettingsError Reader :=
  match line.cutLast? (· == ']'.toUInt8) with
  | none => .error (.unclosedSection line)
  | some (front, _) =>
    let name := front.drop 1
    if name.isEmpty then .error .unnamedSection
    else
      let name := Document.storedName name
      .ok { r with document := r.document.addSection name, current := name, count := 1 }

def value (r : Reader) (name rest : Text) : Except SettingsError Reader :=
  match Value.ofText rest with
  | .complete v => r.put name v
  | .quoted mark opening begun =>
    .ok { r with unfinished := some (.quoted name mark opening begun) }
  | .continued begun => .ok { r with unfinished := some (.continued name begun) }

/-- Reads a line outside any value. The name `-` stands for the next number of the section. -/
def line (r : Reader) (line : Text) : Except SettingsError Reader :=
  match line with
  | [] => .ok r
  | b :: _ =>
    if isCommentMark b then .ok r
    else if b == '['.toUInt8 then r.header line
    else
      match entry line with
      | .error e => .error e
      | .ok (name, rest) =>
        if name = "-" then
          { r with count := r.count + 1 }.value ("#" ++ Text.ofNat r.count) rest
        else r.value name rest

/-- Reads the next line with its line feed; the last line of a file has none. -/
def next (r : Reader) (piece : Text) : Except SettingsError Reader :=
  match r.unfinished with
  | none => r.line piece.trimLeft
  | some (.quoted name mark opening begun) =>
    match piece.cutLastText? mark with
    | some (last, _) => r.put name (begun ++ last)
    | none =>
      if endsWith piece '\n'.toUInt8 then
        .ok { r with unfinished := some (.quoted name mark opening (begun ++ piece)) }
      else .error (.unclosedValue opening piece)
  | some (.continued name begun) =>
    let more := piece.trim
    if more.isEmpty then r.put name begun
    else if endsWith more '\\'.toUInt8 then
      .ok { r with unfinished := some (.continued name (begun ++ more).dropLast) }
    else r.put name (begun ++ more)

/-- What is left to do when the file has ended. -/
def finish (r : Reader) : Except SettingsError Document :=
  match r.unfinished with
  | none => .ok r.document
  | some (.quoted _ _ opening _) => .error (.unclosedValue opening [])
  | some (.continued name begun) => (r.put name begun).map Reader.document

end Reader

namespace Document

/-- Removes a byte order mark. -/
def dropMark (s : Text) : Text :=
  match s with
  | 0xFE :: 0xFF :: rest => rest
  | 0xFF :: 0xFE :: rest => rest
  | 0xEF :: 0xBB :: 0xBF :: rest => rest
  | _ => s

/-- The lines of a file with their line feeds, and what stands after the last one. -/
def pieces (s : Text) : List Text :=
  let parts := s.splitOn '\n'.toUInt8
  parts.dropLast.map (· ++ ['\n'.toUInt8]) ++ parts.getLast?.toList

def read (s : Text) : Except SettingsError Document := do
  (← (pieces (dropMark s)).foldlM Reader.next Reader.start).finish

end Document

end B100
