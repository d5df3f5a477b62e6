import HostRoster.Instant.Json
import HostRoster.Json.Printer
import HostRoster.Json.Reader
import HostRoster.Lock

/-!
# The stored form of a lock
-/
namespace HostRoster.Lock

def toJson (l : Lock) : Json :=
  .obj [("lock_id", .str l.id), ("holder", .str l.holder),
    ("acquired_at", l.acquiredAt.toJson), ("expires_at", l.expiresAt.toJson)]

def ofJson? (v : Json) : Option Lock := do
  let fields ← Json.fields? ["lock_id", "holder", "acquired_at", "expires_at"] v
  return {
    id := ← Json.required fields "lock_id" Json.text?
    holder := ← Json.required fields "holder" Json.text?
    acquiredAt := ← Json.required fields "acquired_at" Instant.ofJson?
    expiresAt := ← Json.required fields "expires_at" Instant.ofJson? }

def document (l : Lock) : String := Json.indented l.toJson

def parse (text : String) : Except StateError Lock :=
  match Json.parse text >>= ofJson? with
  | some l => .ok l
  | none => .error (.corrupted "Failed to parse lock: the document is not a valid lock")

end HostRoster.Lock
