import B100.FileTree.Basic
import B100.Settings.Load

/-! # Hosts

The tool asks a few things of the system that it runs on, in any monad. One host is a value, with a
file tree and the texts that have been put out; another one is the system itself.
-/

namespace B100

/-- What the tool asks of the system that it runs on. -/
structure Host (m : Type → Type) where
  read : Text → m (Except FileError Text)
  /-- Do two paths stand for the same file? -/
  same : Text → Text → m Bool
  /-- Replaces the content of a file; tells what has gone wrong. -/
  write : Text → Text → m (Option FileError)
  stdout : Text → m Unit
  stderr : Text → m Unit

/-- Loads settings files in their order, up to the first that fails. -/
def Host.load {m : Type → Type} [Monad m] (h : Host m) :
    List Text → m (Except LoadError (List Settings))
  | [] => return .ok []
  | path :: paths => do
    let reading ← h.read path
    match Settings.load (fun _ => reading) path with
    | .error e => return .error e
    | .ok v => return (← h.load paths).map (v :: ·)

structure Machine where
  tree : FileTree
  stdout : Text := []
  stderr : Text := []
  deriving DecidableEq, Repr

/-- A machine as a host, on which a write may meet with a mishap. -/
def Machine.host (mishap? : Option Mishap) : Host (StateM Machine) where
  read path := return (← get).tree.read path
  same a b := return (← get).tree.same a b
  write path content := modifyGet fun s =>
    let (tree, error?) := s.tree.write mishap? path content
    (error?, { s with tree })
  stdout text := modify fun s => { s with stdout := s.stdout ++ text }
  stderr text := modify fun s => { s with stderr := s.stderr ++ text }

end B100
