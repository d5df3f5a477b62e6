import HostRoster.Machine
import HostRoster.Store
import HostRoster.Text.Blank

/-!
# Stores of objects

Both documents are objects of one bucket, so that several people can share them.
-/
namespace HostRoster

structure ObjectStore where
  bucket : String
  /-- What stands before the names of the documents: nothing, or a text that ends in a stroke. -/
  start : String
deriving DecidableEq, Repr

namespace ObjectStore

/-- The start of all keys. -/
def keyStart (text : Option String) : String :=
  let segment := Text.trimWhile (· == '/') (text.getD "")
  if segment = "" then "" else segment ++ "/"

/-- The store of a bucket, which has to have a name. -/
def make (bucket : String) (start : Option String) : Except StateError ObjectStore :=
  if Text.isBlankText bucket then .error (.objectStore "Bucket name must not be empty")
  else .ok ⟨bucket, keyStart start⟩

def key (s : ObjectStore) (d : Document) : String := s.start ++ d.fileName

def address (s : ObjectStore) (d : Document) : String := "s3://" ++ s.bucket ++ "/" ++ s.key d

/-- Puts the reason of a failure behind what failed. -/
def orFail {α : Type} (what : String) (result : Except String α) : Except StateError α :=
  result.mapError fun reason => .objectStore ("S3 " ++ what ++ " error: " ++ reason)

/-- The text of a fetched object, if there is one. -/
def ofFetched (s : ObjectStore) (d : Document) : Fetched → Except StateError (Option String)
  | .missing => .ok none
  | .text content => .ok (some content)
  | .garbled => .error (.corrupted ("Invalid UTF-8 in " ++ s.address d))
  | .failed reason => orFail "get" (.error reason)

def carryOut (s : ObjectStore) : (call : DocumentCall) → Program Machine call.Answer
  | .read d => do return s.ofFetched d (← Machine.object (.fetch s.bucket (s.key d)))
  | .write d text => do return orFail "put" (← Machine.object (.put s.bucket (s.key d) text))
  | .remove d => do return orFail "delete" (← Machine.object (.delete s.bucket (s.key d)))
  | .contains d => do return orFail "head" (← Machine.object (.check s.bucket (s.key d)))
  | .now => Machine.now
  | .freshId => Machine.freshId
  | .processName => Machine.processName

end ObjectStore

end HostRoster
