import B100.Settings.Expansion
import B100.Settings.Layer
import B100.Settings.Reader

/-! # Settings from text

A document becomes settings: an entry of a section gets the key `$conf.section.name`, one of the
default section the key `$conf.name`.
-/

namespace B100

/-- Bytes that a name may not hold: it could not be written as an operand, or not be told apart. -/
def isForbiddenInName (b : UInt8) : Bool := Text.isSpaceOrTab b || b == '.'.toUInt8

def Section.isDefault (s : Section) : Bool := s.name.lower == Document.defaultName

/-- What the keys of a section begin with. -/
def Section.stem (s : Section) : Except SettingsError Text :=
  if s.isDefault then .ok "$conf."
  else if s.name.any isForbiddenInName then .error (.invalidSection s.name)
  else .ok ("$conf." ++ s.name ++ ".")

namespace Document

/-- The value of an entry as it can be looked up. -/
def finalValue (d : Document) (s : Section) (entry : Text × Text) : Except SettingsError Text :=
  let (name, value) := entry
  if name.any isForbiddenInName then .error (.invalidName s.name name)
  else
    let value := (d.expand s name value).trim
    if value.isEmpty then .error (.noValue s.name name) else .ok value

/-- Adds the entries of a section to settings. -/
def addSettings (d : Document) (settings : Settings) (s : Section) :
    Except SettingsError Settings := do
  let stem ← s.stem
  s.entries.foldlM (fun settings entry => do
    return settings.set (stem ++ entry.1) (← d.finalValue s entry)) settings

def settings (d : Document) : Except SettingsError Settings := d.foldlM d.addSettings ∅

end Document

namespace Settings

/-- Reads settings from the text of a file. -/
def parse (s : Text) : Except SettingsError Settings := Document.read s >>= Document.settings

/-- Reads settings from the outcome of reading a file. -/
def ofReading : Except Text Text → Except SettingsError Settings
  | .ok s => parse s
  | .error reason => .error (.unreadable reason)

end Settings

end B100
