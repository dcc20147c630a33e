import B100.Text.Blank
import B100.Text.LowerCase
import B100.Text.Quoted

/-! # Settings documents

The content of a settings file before its keys are made: named sections with their entries, both in
the order in which they first appear.
-/

namespace B100

inductive SettingsError where
  | unreadable (reason : Text)
  | unclosedSection (line : Text)
  | unnamedSection
  | unclosedName (line : Text)
  | noDelimiter (line : Text)
  | emptyName (line : Text)
  | unnamedEntry
  | unclosedValue (opening last : Text)
  | invalidSection (name : Text)
  | invalidName (sectionName name : Text)
  | noValue (sectionName name : Text)
  deriving DecidableEq, Repr

def SettingsError.message : SettingsError → Text
  | unreadable reason => reason
  | unclosedSection line => "unclosed section: " ++ line
  | unnamedSection => "empty section name"
  | unclosedName line => "missing closing key quote: " ++ line
  | noDelimiter line => "key-value delimiter not found: " ++ line
  | emptyName line => "empty key name: " ++ line
  | unnamedEntry => "error creating new key: empty key name"
  | unclosedValue opening last =>
    "missing closing key quote from " ++ opening.quote ++ " to " ++ last.quote
  | invalidSection name => "invalid section name " ++ name.quote
  | invalidName sectionName name => "[" ++ sectionName ++ "] invalid name " ++ name.quote
  | noValue sectionName name => "[" ++ sectionName ++ "] " ++ name ++ " has no value"

structure Section where
  name : Text
  /-- Names with their values as written, each name once. -/
  entries : List (Text × Text) := []
  deriving DecidableEq, Repr

namespace Section

def value? (s : Section) (name : Text) : Option Text := s.entries.lookup name

/-- Gives an entry a value. A new entry goes to the end; an old one keeps its place. -/
def put (s : Section) (name value : Text) : Section :=
  { s with entries :=
      if (s.value? name).isSome then
        s.entries.map fun (n, v) => if n = name then (n, value) else (n, v)
      else s.entries ++ [(name, value)] }

end Section

/-- Sections, each name once. -/
abbrev Document := List Section

namespace Document

def section? (d : Document) (name : Text) : Option Section := d.find? (·.name == name)

/-- Adds a section at the end, unless it is there already. -/
def addSection (d : Document) (name : Text) : Document :=
  if (d.section? name).isSome then d else d ++ [{ name := name }]

/-- Gives an entry of a section a value. -/
def put (d : Document) (sectionName name value : Text) : Document :=
  d.map fun s => if s.name = sectionName then s.put name value else s

/-- The section of the entries that stand before any header. -/
def defaultName : Text := "default"

/-- A section name as it is stored: in lower case, except for one spelling of the default name,
which thereby names a section of its own. -/
def storedName (name : Text) : Text := if name = "DEFAULT" then name else name.lower

end Document

end B100
