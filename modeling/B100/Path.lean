import B100.Text.Basic

/-! # Paths

What can be said of a path from its text alone: its parts, its shortest spelling, and the name of
the image that goes with a source.
-/

namespace B100.Path

def isSlash (b : UInt8) : Bool := b == '/'.toUInt8

def isAbsolute (path : Text) : Bool := ("/" : Text).isPrefixOf path

/-- The texts between slashes. An empty part means the same as a single dot. -/
def parts (path : Text) : List Text := path.splitOn '/'.toUInt8

def isHere (part : Text) : Bool := part.isEmpty || part == "."

def isUp (part : Text) : Bool := part == ".."

/-- Adds a part to the parts of a clean path, which are given in reverse. Going up takes back the
part before, except at the root and after another way up. -/
def cleanStep (absolute : Bool) (done : List Text) (part : Text) : List Text :=
  if isHere part then done
  else if isUp part then
    match done with
    | [] => if absolute then [] else [part]
    | last :: before => if isUp last then part :: done else before
  else part :: done

/-- The shortest spelling of a path, found without looking at any file. -/
def clean (path : Text) : Text :=
  let absolute := isAbsolute path
  let body := List.intercalate "/" ((parts path).foldl (cleanStep absolute) []).reverse
  if absolute then "/" ++ body else if body.isEmpty then "." else body

/-- A file name without its extension, which starts at the last dot. -/
def stem (name : Text) : Text :=
  match name.cutLast? (· == '.'.toUInt8) with
  | some (stem, _) => stem
  | none => name

/-- The image of a source goes beside it, under the extension `.bin`. -/
def image (source : Text) : Text :=
  match source.cutLast? isSlash with
  | some (directory, name) => directory ++ "/" ++ stem name ++ ".bin"
  | none => stem source ++ ".bin"

end B100.Path
