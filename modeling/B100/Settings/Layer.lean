import B100.Text.LowerCase
import Std.Data.ExtTreeMap

/-! # Settings in layers

Settings bind keys such as `$conf.io.uart` to the text of a number; case does not matter in a key.
Layers of settings are asked in order, and the first that binds a key answers.
-/

namespace B100

/-- Keys with their values. A key is stored in lower case. -/
abbrev Settings := Std.ExtTreeMap Text Text

namespace Settings

def lookup (s : Settings) (key : Text) : Option Text := s[key.lower]?

def set (s : Settings) (key value : Text) : Settings := s.insert key.lower value

end Settings

/-- A source of settings. -/
inductive Layer where
  | absent
  | table (s : Settings)
  | stack (layers : List Layer)

namespace Layer

mutual

def lookup (key : Text) : Layer → Option Text
  | absent => none
  | table s => s.lookup key
  | stack layers => lookupFirst key layers

/-- The answer of the first layer that has one. -/
def lookupFirst (key : Text) : List Layer → Option Text
  | [] => none
  | l :: ls =>
    match lookup key l with
    | some value => some value
    | none => lookupFirst key ls

end

def ofTable? : Option Settings → Layer
  | some s => table s
  | none => absent

end Layer

end B100
