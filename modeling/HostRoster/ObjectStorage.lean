import HostRoster.FileSystem

/-!
# Object storage

The calls on a store that keeps texts under a bucket and a key, and such a store in
memory. Calls of the store in memory can be made to fail.
-/
namespace HostRoster

/-- The kinds of calls, by the method that carries them. -/
inductive ObjectMethod where
  | get
  | put
  | delete
  | head
deriving DecidableEq, Repr

namespace ObjectMethod

def label : ObjectMethod → String
  | get => "GET"
  | put => "PUT"
  | delete => "DELETE"
  | head => "HEAD"

def ofLabel? (text : String) : Option ObjectMethod :=
  [get, put, delete, head].find? fun m => m.label == text

end ObjectMethod

/-- A call on the object of a bucket and a key. -/
inductive ObjectCall where
  | fetch (bucket key : String)
  | put (bucket key text : String)
  /-- Deletes an object; nothing happens when there is none. -/
  | delete (bucket key : String)
  | check (bucket key : String)
deriving DecidableEq, Repr

/-- What fetching an object gives. -/
inductive Fetched where
  | missing
  | text (content : String)
  /-- The object is not the encoding of any text. -/
  | garbled
  | failed (reason : String)
deriving DecidableEq, Repr

namespace ObjectCall

/-- What a call gives: a failed call gives the reason. -/
def Answer : ObjectCall → Type
  | fetch .. => Fetched
  | put .. => Except String Unit
  | delete .. => Except String Unit
  | check .. => Except String Bool

def method : ObjectCall → ObjectMethod
  | fetch .. => .get
  | put .. => .put
  | delete .. => .delete
  | check .. => .head

/-- The bucket and the key in one text. -/
def path : ObjectCall → String
  | fetch bucket key => bucket ++ "/" ++ key
  | put bucket key _ => bucket ++ "/" ++ key
  | delete bucket key => bucket ++ "/" ++ key
  | check bucket key => bucket ++ "/" ++ key

end ObjectCall

/-- Objects in memory, under bucket and key, and the failures that wait for the next calls of
each method. -/
structure ObjectStorage where
  objects : KeyMap String FileContent := ∅
  faults : List (ObjectMethod × Nat) := []

namespace ObjectStorage

/-- Takes the first failure that waits for a method. -/
def takeFault (s : ObjectStorage) (method : ObjectMethod) : Option Nat × ObjectStorage :=
  match s.faults.find? fun f => f.1 = method with
  | none => (none, s)
  | some fault => (some fault.2, { s with faults := s.faults.erase fault })

def reason (status : Nat) : String := "unexpected status " ++ toString status

def refuse (status : Nat) : (call : ObjectCall) → call.Answer
  | .fetch .. => .failed (reason status)
  | .put .. => .error (reason status)
  | .delete .. => .error (reason status)
  | .check .. => .error (reason status)

/-- Carries out a call that does not fail. -/
def perform (s : ObjectStorage) : (call : ObjectCall) → call.Answer × ObjectStorage
  | .fetch bucket key =>
    (match s.objects.get? (bucket ++ "/" ++ key) with
      | none => Fetched.missing
      | some (.text content) => .text content
      | some (.bytes _) => .garbled, s)
  | .put bucket key text =>
    (.ok (), { s with objects := s.objects.insert (bucket ++ "/" ++ key) (.text text) })
  | .delete bucket key => (.ok (), { s with objects := s.objects.erase (bucket ++ "/" ++ key) })
  | .check bucket key => (.ok (s.objects.get? (bucket ++ "/" ++ key)).isSome, s)

/-- Carries out a call, unless a failure waits for it. -/
def carryOut (s : ObjectStorage) (call : ObjectCall) : call.Answer × ObjectStorage :=
  match s.takeFault call.method with
  | (some status, s) => (refuse status call, s)
  | (none, s) => s.perform call

end ObjectStorage

end HostRoster
