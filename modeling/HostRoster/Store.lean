import HostRoster.Lock.Json
import HostRoster.Program
import HostRoster.State.Json

/-!
# Stores

The record of a cluster is kept as two documents, the state and its lock. What a
store does is said here once over calls on the two documents; a kind of store only
says how it keeps them. Taking the lock reads the stored lock and then writes
another, and nothing prevents a second holder from doing the same in between.
-/
namespace HostRoster

/-- The two documents of a store. -/
inductive Document where
  | state
  | lock
deriving DecidableEq, Repr

def Document.fileName : Document → String
  | state => "state.json"
  | lock => "state.lock"

/-- A call on the documents of a store, and what taking a lock needs besides. -/
inductive DocumentCall where
  | read (document : Document)
  | write (document : Document) (text : String)
  /-- Removes a document; nothing happens when there is none. -/
  | remove (document : Document)
  | contains (document : Document)
  | now
  | freshId
  | processName
deriving DecidableEq, Repr

def DocumentCall.Answer : DocumentCall → Type
  | read _ => Except StateError (Option String)
  | write .. => Except StateError Unit
  | remove _ => Except StateError Unit
  | contains _ => Except StateError Bool
  | now => Instant
  | freshId => String
  | processName => String

def Documents : Interface where
  Request := DocumentCall
  Reply := DocumentCall.Answer

namespace Documents

def ask (call : DocumentCall) : Program Documents call.Answer :=
  Program.request (I := Documents) call

end Documents

/-- A program over documents that may fail. -/
abbrev Keeping (α : Type) := ExceptT StateError (Program Documents) α

inductive StoreCall where
  | load
  | save (state : ClusterState)
  | delete
  | hasState
  | acquire (holder : String)
  /-- Gives a lock back, if it is still the stored one. -/
  | release (id : String)
  | forceUnlock
  | lockInfo
deriving DecidableEq

def StoreCall.Answer : StoreCall → Type
  | load => Option ClusterState
  | save _ => Unit
  | delete => Unit
  | hasState => Bool
  | acquire _ => Lock
  | release _ => Unit
  | forceUnlock => Unit
  | lockInfo => Option Lock

/-- How many characters of an identifier name a holder. -/
def holderIdLength : Nat := 8

/-- The name a holder makes up for itself. -/
def madeUpHolder (process id : String) : String :=
  process ++ "-" ++ .ofList (id.toList.take holderIdLength)

namespace StoreCall

def readDocument (d : Document) : Keeping (Option String) := ExceptT.mk (Documents.ask (.read d))

def writeDocument (d : Document) (text : String) : Keeping Unit :=
  ExceptT.mk (Documents.ask (.write d text))

def removeDocument (d : Document) : Keeping Unit := ExceptT.mk (Documents.ask (.remove d))

/-- Reads a document whose text stands for a value. -/
def readParsed {α : Type} (d : Document) (parse : String → Except StateError α) :
    Keeping (Option α) := do
  match ← readDocument d with
  | none => return none
  | some text => return some (← ExceptT.mk (pure (parse text)))

def readLock : Keeping (Option Lock) := readParsed .lock Lock.parse

/-- The name that stands in for a holder without one. -/
def standInHolder : Keeping String := do
  let process : String ← Documents.ask .processName
  let id : String ← Documents.ask .freshId
  return madeUpHolder process id

/-- Reads the stored lock and, if it is free, writes one for the holder. -/
def acquireLock (holder : String) : Keeping Lock := do
  let existing ← readLock
  let now : Instant ← Documents.ask .now
  let id : String ← Documents.ask .freshId
  let lock ← ExceptT.mk (pure (Lock.claim existing now id holder (← standInHolder)))
  writeDocument .lock lock.document
  return lock

/-- Removes the stored lock if it carries an identifier. -/
def releaseLock (id : String) : Keeping Unit := do
  match ← readLock with
  | none => return
  | some lock => if lock.id = id then removeDocument .lock else return

/-- What an operation does to the documents. -/
def perform : (call : StoreCall) → Keeping call.Answer
  | load => readParsed .state ClusterState.parse
  | save state => writeDocument .state state.document
  | delete => do
    removeDocument .state
    removeDocument .lock
  | hasState => ExceptT.mk (Documents.ask (.contains .state))
  | acquire holder => acquireLock holder
  | release id => releaseLock id
  | forceUnlock => removeDocument .lock
  | lockInfo => readLock

end StoreCall

/-- Whether a lock that was read still holds. -/
def isHeld (lock : Option Lock) (now : Instant) : Bool := lock.any fun l => !l.isExpired now

/-- Does work while holding the lock. The lock is given back whether or not the work succeeds,
and a failure to do so changes nothing about the result. -/
def withLock {m : Type → Type} [Monad m] {α : Type}
    (perform : (call : StoreCall) → m (Except StateError call.Answer)) (holder : String)
    (work : m (Except SyncError α)) : m (Except SyncError α) := do
  match ← perform (.acquire holder) with
  | .error e => return .error (.state e)
  | .ok lock =>
    let result ← work
    let _ ← perform (.release (Lock.id lock))
    return result

end HostRoster
