import HostRoster.Machine
import HostRoster.Store

/-!
# Stores of files

Both documents are files of one directory. A document is written to a file beside
it, which then takes its place.
-/
namespace HostRoster

structure FileStore where
  directory : String
  statePath : String
deriving DecidableEq, Repr

namespace FileStore

def usualDirectory : String := ".hostsync"

def ofDirectory (directory : String) : FileStore :=
  ⟨directory, Path.join directory Document.state.fileName⟩

/-- The store with a state at a path of its own; the lock stands beside it. -/
def ofStatePath (path : String) : FileStore := ⟨Path.directory path, path⟩

def path (s : FileStore) : Document → String
  | .state => s.statePath
  | .lock => Path.join s.directory Document.lock.fileName

/-- The file to which a document is first written. -/
def draftPath (path : String) : String := Path.withEnding path "tmp"

/-- Puts the reason of a failure behind what failed. -/
def orFail {α : Type} (what : String) (result : Except String α) : Except StateError α :=
  result.mapError fun reason => .fileStore (what ++ ": " ++ reason)

def makeDirectory (s : FileStore) : Program Machine (Except StateError Unit) := do
  let found : Bool ← Machine.file (.contains s.directory)
  if found then return .ok ()
  else
    return orFail "Failed to create state directory"
      (← Machine.file (.makeDirectory s.directory))

def attempt (what : String) (step : Program Machine (Except String Unit)) :
    ExceptT StateError (Program Machine) Unit :=
  ExceptT.mk do return orFail what (← step)

/-- Writes a file beside its place and then puts it there. -/
def writeFile (s : FileStore) (path text : String) : ExceptT StateError (Program Machine) Unit := do
  ExceptT.mk s.makeDirectory
  attempt ("Failed to create " ++ path) (Machine.file (.create (draftPath path)))
  attempt ("Failed to write " ++ path) (Machine.file (.write (draftPath path) text))
  attempt ("Failed to sync " ++ path) (Machine.file (.sync (draftPath path)))
  attempt ("Failed to rename " ++ path) (Machine.file (.rename (draftPath path) path))

def readFile (path : String) : Program Machine (Except StateError (Option String)) := do
  let found : Bool ← Machine.file (.contains path)
  if found then
    match ← Machine.file (.read path) with
    | .ok text => return .ok (some text)
    | .error reason => return .error (.corrupted ("Failed to read " ++ path ++ ": " ++ reason))
  else return .ok none

def removeFile (path : String) : Program Machine (Except StateError Unit) := do
  let found : Bool ← Machine.file (.contains path)
  if found then return orFail ("Failed to delete " ++ path) (← Machine.file (.delete path))
  else return .ok ()

/-- A document that cannot be written is an error of the store; a lock that cannot be written
is a lock that cannot be had. -/
def writeError : Document → StateError → StateError
  | .state, e => e
  | .lock, e => .lockFailed (SyncError.state e).message

def carryOut (s : FileStore) : (call : DocumentCall) → Program Machine call.Answer
  | .read d => readFile (s.path d)
  | .write d text => do return (← (s.writeFile (s.path d) text).run).mapError (writeError d)
  | .remove d => removeFile (s.path d)
  | .contains d => do
    let found : Bool ← Machine.file (.contains (s.path d))
    return .ok found
  | .now => Machine.now
  | .freshId => Machine.freshId
  | .processName => Machine.processName

end FileStore

end HostRoster
