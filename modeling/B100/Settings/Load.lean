import B100.Diagnostic
import B100.FileTree.Basic
import B100.Settings.Parse

/-! # Settings from files

A list of settings files makes layers, the first file on top. One file that cannot be loaded spoils
the list.
-/

namespace B100

/-- What went wrong with a settings file. -/
inductive LoadError where
  | file (path : Text) (error : FileError)
  | content (path : Text) (error : SettingsError)
  deriving DecidableEq, Repr

namespace LoadError

/-- A file that opens but cannot be read fails where its byte order mark is looked for. -/
def message : LoadError → Text
  | file path error =>
    if error.operation = .reading then path ++ ": BOM: " ++ error.message
    else path ++ ": " ++ error.message
  | content path error => path ++ ": " ++ error.message

def isMissing : LoadError → Bool
  | file _ error => error.operation == .opening && error.isMissing
  | content _ _ => false

def cause (e : LoadError) : Cause := { text := e.message, missingFile := e.isMissing }

end LoadError

namespace Settings

variable (read : Text → Except FileError Text)

def load (path : Text) : Except LoadError Settings :=
  match read path with
  | .error e => .error (.file path e)
  | .ok s => (parse s).mapError (.content path)

/-- The first file that fails decides. -/
def loadAll (paths : List Text) : Except LoadError (List Settings) := paths.mapM (load read)

end Settings

end B100
