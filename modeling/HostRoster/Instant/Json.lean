import HostRoster.Instant.Reader
import HostRoster.Json.Decoder

/-!
# Instants in JSON

An instant is a string in its stored form.
-/
namespace HostRoster.Instant

def toJson (t : Instant) : Json := .str t.stored

def ofJson? (v : Json) : Option Instant := Json.text? v >>= parse

end HostRoster.Instant
