import B100.FileTree.Basic
import Std.Data.ExtTreeMap

/-! # Building and comparing file trees

A tree is built by putting files, directories and links into its working directory. The regular
files below that directory, by path, are what two trees are compared on.
-/

namespace B100.FileTree

/-- An empty working directory in `/tmp`, with the two devices under `/dev`. The working directory
has no name, so that no absolute path leads to it. -/
def empty : FileTree where
  nodes := #[.directory 0 [("dev", 1), ("tmp", 4)],
    .directory 0 [("null", 2), ("full", 3)], .sink, .full, .directory 0 [], .directory 4 []]
  workingDirectory := 5

/-- Goes down into a directory, which is created if it is missing. -/
def enter (t : FileTree) (here : Nat) (part : Text) : FileTree × Nat :=
  if Path.isHere part then (t, here)
  else
    match t.walk false 40 here [part] with
    | .ok (.node i) => (t, i)
    | _ => (t.add here part (.directory here []), t.nodes.size)

/-- The directory that holds the last part of a path, with all directories on the way, and that
part. -/
def parentOf (t : FileTree) (path : Text) : FileTree × Nat × Text :=
  let parts := Path.parts path
  let (t, here) := parts.dropLast.foldl (fun (t, here) part => t.enter here part)
    (t, origin t.workingDirectory path)
  (t, here, parts.getLast?.getD [])

def putDirectory (t : FileTree) (path : Text) : FileTree :=
  ((Path.parts path).foldl (fun (t, here) part => t.enter here part)
    (t, origin t.workingDirectory path)).1

def putFile (t : FileTree) (path content : Text) : FileTree :=
  let (t, here, name) := t.parentOf path
  t.add here name (.file content)

def putLink (t : FileTree) (path target : Text) : FileTree :=
  let (t, here, name) := t.parentOf path
  t.add here name (.link target)

/-- A further name for a file. -/
def putName (t : FileTree) (path file : Text) : FileTree :=
  let (t, here, name) := t.parentOf path
  match t.find file, t.directory? here with
  | .ok i, some (parent, entries) =>
    { t with nodes := t.nodes.setIfInBounds here (.directory parent (entries ++ [(name, i)])) }
  | _, _ => t

/-- The regular files below a directory with their paths, to a limited depth. -/
def filesBelow (t : FileTree) : Nat → Nat → List (Text × Text)
  | 0, _ => []
  | depth + 1, here =>
    match t.directory? here with
    | none => []
    | some (_, entries) => entries.flatMap fun (name, i) =>
      match t.nodes[i]? with
      | some (.file content) => [(name, content)]
      | some (.directory _ _) =>
        (t.filesBelow depth i).map fun (path, content) => (name ++ "/" ++ path, content)
      | _ => []

/-- The regular files below the working directory. No path is longer than there are nodes. -/
def files (t : FileTree) : Std.ExtTreeMap Text Text :=
  .ofList (t.filesBelow t.nodes.size t.workingDirectory)

/-- The files of a later tree that are new or have another content. -/
def changed (t later : FileTree) : List (Text × Text) :=
  let before := t.files
  later.files.toList.filter fun (path, content) => before[path]? != some content

end B100.FileTree
