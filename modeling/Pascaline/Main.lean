import Pascaline.Tool.Execute
import Std.Time.DateTime.Timestamp

/-!
# The command line

Connects the tool to the disk, the clock and the channels of the machine it runs on.
-/

namespace Pascaline.Host

/-- Why the machine refused. -/
def causeOf : IO.Error → FileCause
  | .noFileOrDirectory .. => .notFound
  | .inappropriateType _ code _ => if code = 21 then .isDirectory else .notDirectory
  | e => .other (toString e)

/-- Asks the machine for something; a refusal tells what was asked of which path. -/
def attempt {α : Type} (action path : String) (x : IO α) : IO (Except FileError α) := do
  try
    return .ok (← x)
  catch e => return .error ⟨action, path, causeOf e⟩

/-- A directory can be opened, but not read. -/
def stat (path : String) : IO (Except FileError EntryKind) := do
  match ← attempt "stat" path (IO.FS.Handle.mk path .read) with
  | .error e => return .error e
  | .ok handle =>
    match ← attempt "read" path (handle.read 1) with
    | .ok _ => return .ok .file
    | .error e => return if e.cause = .isDirectory then .ok .directory else .error e

def read (path : String) : IO (Except FileError Bytes) := do
  match ← attempt "open" path (IO.FS.readBinFile path) with
  | .ok content => return .ok content.toList
  | .error e => return .error { e with action := if e.cause = .isDirectory then "read" else "open" }

/-- Nothing is removed if nothing is there. -/
def removeTree (path : String) : IO (Except FileError Unit) := do
  match ← stat path with
  | .ok .directory => attempt "unlinkat" path (IO.FS.removeDirAll path)
  | .ok .file => attempt "unlinkat" path (IO.FS.removeFile path)
  | .error e => return if e.cause = .notFound then .ok () else .error e

instance : FileStore IO where
  workingDir := return toString (← IO.currentDir)
  fileBound := return 1000000
  stat := stat
  read := read
  write path content := attempt "open" path (IO.FS.writeBinFile path ⟨content.toArray⟩)
  makeDirs path := attempt "mkdir" path (IO.FS.createDirAll path)
  removeTree := removeTree

instance : Clock IO where
  now := return (← Std.Time.Timestamp.now).toNanosecondsSinceUnixEpoch.toInt.toNat / 1000

/-- Everything that is left of a channel. -/
partial def readAll (stream : IO.FS.Stream) (sofar : ByteArray) : IO ByteArray := do
  let chunk ← stream.read 65536
  if chunk.isEmpty then return sofar else readAll stream (sofar ++ chunk)

def console : IO (Tool.Console IO) := do
  return { input := return (← readAll (← IO.getStdin) .empty).toList
           terminal := ← (← IO.getStderr).isTty }

end Pascaline.Host

def main (args : List String) : IO UInt32 := do
  let done ← Pascaline.Tool.execute (← Pascaline.Host.console) args
  (← IO.getStdout).write ⟨done.screen.out.toArray⟩
  (← IO.getStderr).write ⟨done.screen.err.toArray⟩
  return done.exit.toUInt32
