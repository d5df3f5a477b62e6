import HostRoster.Json.Decoder

/-!
# Lenient reading of JSON

Fields of an object are read one at a time. A field that is missing or null stands
for a default, and fields that are not asked for may hold anything.
-/
namespace HostRoster.Json

/-- A field of an object, null when it is missing. -/
def field (v : Json) (name : String) : Json :=
  match v with
  | .obj fields => (fields.lookup name).getD .null
  | _ => .null

/-- A field with a default. -/
def optional {α : Type} (v : Json) (name : String) (default : α) (read : Json → Option α) :
    Option α :=
  match field v name with
  | .null => some default
  | x => read x

def optional? {α : Type} (v : Json) (name : String) (read : Json → Option α) :
    Option (Option α) :=
  optional v name none fun x => some <$> read x

def textField (v : Json) (name : String) : Option String := optional v name "" text?

def textField? (v : Json) (name : String) : Option (Option String) := optional? v name text?

def natField (v : Json) (name : String) : Option Nat := optional v name 0 nat64?

def boolField (v : Json) (name : String) (default : Bool) : Option Bool :=
  optional v name default bool?

def listField {α : Type} (v : Json) (name : String) (read : Json → Option α) :
    Option (List α) :=
  optional v name [] (list? read)

def mapField {α : Type} (v : Json) (name : String) (read : Json → Option α) :
    Option (KeyMap String α) :=
  optional v name ∅ (keyMap? read)

end HostRoster.Json
