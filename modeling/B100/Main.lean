import B100.Tool.CommandLine

/-! # The tool

The command line on the files and the streams of the system.
-/

namespace B100.Main

def pathString (path : Text) : String := (String.fromUTF8? path.toByteArray).getD ""

def reason : IO.Error → Reason
  | .noFileOrDirectory _ _ _ => .notFound
  | .inappropriateType _ _ _ => .isDirectory
  | .resourceExhausted _ _ _ => .noSpace
  | e => .other (Text.utf8 (toString e))

def readFile (path : Text) : IO (Except FileError Text) := do
  match ← (IO.FS.realPath (pathString path)).toBaseIO with
  | .error e => return .error ⟨.opening, path, reason e⟩
  | .ok file =>
    if ← file.isDir then return .error ⟨.reading, path, .isDirectory⟩
    match ← (IO.FS.readBinFile file).toBaseIO with
    | .error e => return .error ⟨.opening, path, reason e⟩
    | .ok content => return .ok content.data.toList

def writeFile (path content : Text) : IO (Option FileError) := do
  match ← (IO.FS.Handle.mk (pathString path) .write).toBaseIO with
  | .error e => return some ⟨.opening, path, reason e⟩
  | .ok handle =>
    match ← (do handle.write content.toByteArray; handle.flush : IO Unit).toBaseIO with
    | .error e => return some ⟨.writing, path, reason e⟩
    | .ok () => return none

/-- Are two open files one? A lock that is held through one of them keeps the other from getting it,
which gets it once it is free. -/
def sameHandle (h k : IO.FS.Handle) : IO Bool := do
  h.lock
  let free ← k.tryLock
  h.unlock
  let freed ← k.tryLock
  k.unlock
  return !free && freed

def sameFile (a b : Text) : IO Bool := do
  if Path.clean a == Path.clean b then return true
  try
    let p ← IO.FS.realPath (pathString a)
    let q ← IO.FS.realPath (pathString b)
    if p == q then return true
    sameHandle (← IO.FS.Handle.mk p .read) (← IO.FS.Handle.mk q .read)
  catch _ => return false

def put (out : IO.FS.Stream) (s : Text) : IO Unit := do
  out.write s.toByteArray
  out.flush

/-- The system that the tool runs on. -/
def host : Host IO where
  read := readFile
  same := sameFile
  write := writeFile
  stdout text := do put (← IO.getStdout) text
  stderr text := do put (← IO.getStderr) text

def start (args : List String) : IO UInt32 := do
  match ← CommandLine.perform host (args.map Text.utf8) with
  | .error c =>
    host.stderr ("panic: " ++ c.message ++ "\n")
    return 2
  | .ok status => return status.toUInt32

end B100.Main

def main (args : List String) : IO UInt32 := B100.Main.start args
