import B100.Path

/-! # File trees

A file system as a value: numbered nodes, so that several names can stand for one file, with
directories that give names to nodes and links that stand for other paths. Node zero is the root.
-/

namespace B100

/-- Why a file operation fails. -/
inductive Reason where
  | notFound
  | notDirectory
  | isDirectory
  | nameTooLong
  | tooManyLinks
  | noSpace
  | invalidPath
  | other (message : Text)
  deriving DecidableEq, Repr

def Reason.message : Reason → Text
  | notFound => "no such file or directory"
  | notDirectory => "not a directory"
  | isDirectory => "is a directory"
  | nameTooLong => "file name too long"
  | tooManyLinks => "too many levels of symbolic links"
  | noSpace => "no space left on device"
  | invalidPath => "invalid argument"
  | other message => message

inductive FileOperation where
  | opening
  | reading
  | writing
  | closing
  deriving DecidableEq, Repr

def FileOperation.name : FileOperation → Text
  | opening => "open"
  | reading => "read"
  | writing => "write"
  | closing => "close"

structure FileError where
  operation : FileOperation
  path : Text
  reason : Reason
  deriving DecidableEq, Repr

namespace FileError

def message (e : FileError) : Text := e.operation.name ++ " " ++ e.path ++ ": " ++ e.reason.message

def isMissing (e : FileError) : Bool := e.reason == .notFound

end FileError

/-- What can go wrong when a file is written, for reasons that are not in its tree. -/
inductive Mishap where
  | opening (reason : Reason)
  /-- Only so many bytes are taken. -/
  | writing (taken : Nat) (reason : Reason)
  | closing (reason : Reason)
  deriving DecidableEq, Repr

inductive Node where
  | file (content : Text)
  | directory (parent : Nat) (entries : List (Text × Nat))
  | link (target : Text)
  /-- A device that takes all that is written to it. -/
  | sink
  /-- A device without room for anything. -/
  | full
  deriving DecidableEq, Repr

structure FileTree where
  nodes : Array Node
  /-- The directory that relative paths start from. -/
  workingDirectory : Nat
  deriving DecidableEq, Repr

/-- Where a path leads: to a node, or to a name that is still free in a directory. -/
inductive Place where
  | node (number : Nat)
  | vacancy (directory : Nat) (name : Text)
  deriving DecidableEq, Repr

namespace FileTree

def root : Nat := 0

/-- The parent and the entries of a directory. -/
def directory? (t : FileTree) (i : Nat) : Option (Nat × List (Text × Nat)) :=
  match t.nodes[i]? with
  | some (.directory parent entries) => some (parent, entries)
  | _ => none

/-- The directory that a path starts from, when it is met in the given one. -/
def origin (here : Nat) (path : Text) : Nat := if Path.isAbsolute path then root else here

/-- Follows the parts of a path from a directory. Links are handed to `follow`. A path that is to be
created cannot end in a slash. -/
def descend (t : FileTree) (creating : Bool) (follow : Nat → List Text → Except Reason Place)
    (here : Nat) : List Text → Except Reason Place
  | [] => .ok (.node here)
  | part :: rest =>
    match t.directory? here with
    | none => .error .notDirectory
    | some (parent, entries) =>
      if Path.isHere part then t.descend creating follow here rest
      else if Path.isUp part then t.descend creating follow parent rest
      else if creating && !rest.isEmpty && rest.all List.isEmpty then .error .isDirectory
      else if 255 < part.length then .error .nameTooLong
      else
        match entries.lookup part with
        | none => if rest.isEmpty then .ok (.vacancy here part) else .error .notFound
        | some i =>
          match t.nodes[i]? with
          | none => .error .notFound
          | some (.link target) => follow (origin here target) (Path.parts target ++ rest)
          | some _ => t.descend creating follow i rest

/-- Follows the parts of a path through at most so many links. -/
def walk (t : FileTree) (creating : Bool) : Nat → Nat → List Text → Except Reason Place
  | 0 => t.descend creating fun _ _ => .error .tooManyLinks
  | links + 1 => t.descend creating (t.walk creating links)

/-- Where a path leads. -/
def locate (t : FileTree) (creating : Bool) (path : Text) : Except Reason Place :=
  if path.contains 0 then .error .invalidPath
  else if path.isEmpty then .error .notFound
  else if 4096 ≤ path.length then .error .nameTooLong
  else t.walk creating 40 (origin t.workingDirectory path) (Path.parts path)

/-- The node that a path stands for. -/
def find (t : FileTree) (path : Text) : Except Reason Nat :=
  match t.locate false path with
  | .ok (.node i) => .ok i
  | .ok (.vacancy _ _) => .error .notFound
  | .error reason => .error reason

/-- The content of a file. Devices have none. -/
def read (t : FileTree) (path : Text) : Except FileError Text :=
  match t.find path with
  | .error reason => .error ⟨.opening, path, reason⟩
  | .ok i =>
    match t.nodes[i]? with
    | some (.file content) => .ok content
    | some (.directory _ _) => .error ⟨.reading, path, .isDirectory⟩
    | _ => .ok []

/-- Adds a node under a free name of a directory. -/
def add (t : FileTree) (directory : Nat) (name : Text) (n : Node) : FileTree :=
  match t.directory? directory with
  | none => t
  | some (parent, entries) =>
    { t with nodes :=
        (t.nodes.setIfInBounds directory
          (.directory parent (entries ++ [(name, t.nodes.size)]))).push n }

/-- Gives a file another content. There is none to give to anything else. -/
def fill (t : FileTree) (i : Nat) (content : Text) : FileTree :=
  match t.nodes[i]? with
  | some (.file _) => { t with nodes := t.nodes.setIfInBounds i (.file content) }
  | _ => t

/-- Opens a file to be written, which is created if it is missing and emptied otherwise. Tells the
node that was opened. -/
def create (t : FileTree) (mishap? : Option Mishap) (path : Text) :
    Except FileError (FileTree × Nat) :=
  match t.locate true path, mishap? with
  | .error reason, _ => .error ⟨.opening, path, reason⟩
  | .ok _, some (.opening reason) => .error ⟨.opening, path, reason⟩
  | .ok (.vacancy directory name), _ => .ok (t.add directory name (.file []), t.nodes.size)
  | .ok (.node i), _ =>
    match t.nodes[i]? with
    | some (.directory _ _) => .error ⟨.opening, path, .isDirectory⟩
    | _ => .ok (t.fill i [], i)

/-- Replaces the content of a file. When something goes wrong after it has been opened, nothing is
undone: it is left with the bytes that were taken. -/
def write (t : FileTree) (mishap? : Option Mishap) (path content : Text) :
    FileTree × Option FileError :=
  match t.create mishap? path with
  | .error e => (t, some e)
  | .ok (u, i) =>
    match u.nodes[i]?, mishap? with
    | some .full, _ => (u, some ⟨.writing, path, .noSpace⟩)
    | _, some (.writing taken reason) =>
      (u.fill i (content.take taken), some ⟨.writing, path, reason⟩)
    | _, some (.closing reason) => (u.fill i content, some ⟨.closing, path, reason⟩)
    | _, _ => (u.fill i content, none)

/-- Do two paths stand for the same file? They do if they have one clean spelling, or if both lead
to the same node. -/
def same (t : FileTree) (a b : Text) : Bool :=
  Path.clean a == Path.clean b ||
    match t.find a, t.find b with
    | .ok i, .ok j => i == j
    | _, _ => false

end FileTree

end B100
