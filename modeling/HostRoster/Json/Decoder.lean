import HostRoster.KeyMap
import HostRoster.Json.Value

/-!
# Reading records from JSON

A record is written as an object, or as an array of its fields in order. A field
given twice makes the record unreadable; fields of other names are skipped. Every
reader either gives a value or refuses, and the reason is not kept.
-/
namespace HostRoster.Json

def text? : Json → Option String
  | .str text => some text
  | _ => none

def bool? : Json → Option Bool
  | .bool b => some b
  | _ => none

/-- An integer from zero up to, but not including, a bound. -/
def natBelow? (bound : Nat) : Json → Option Nat
  | .int n => if 0 ≤ n ∧ n < bound then some n.toNat else none
  | _ => none

def nat32? : Json → Option Nat := natBelow? 0x100000000

def nat64? : Json → Option Nat := natBelow? 0x10000000000000000

def int32? : Json → Option Int
  | .int n => if -0x80000000 ≤ n ∧ n < 0x80000000 then some n else none
  | _ => none

def list? {α : Type} (item : Json → Option α) : Json → Option (List α)
  | .arr items => items.mapM item
  | _ => none

def nullable? {α : Type} (value : Json → Option α) : Json → Option (Option α)
  | .null => some none
  | v => (value v).map some

/-- A map from the fields of an object; of two with one name the later wins. -/
def keyMap? {α : Type} (value : Json → Option α) : Json → Option (KeyMap String α)
  | .obj fields => do
    return .ofList (← fields.mapM fun f => do return (f.1, ← value f.2))
  | _ => none

/-- The name of a choice: a string, or an object that gives the name a null. -/
def choice? : Json → Option String
  | .str name => some name
  | .obj [(name, .null)] => some name
  | _ => none

/-- The fields of a record by name, given the names in order. -/
def fields? (names : List String) : Json → Option (List (String × Json))
  | .obj fields =>
    let known := fields.filter fun f => names.contains f.1
    if (known.map (·.1)).Nodup then some known else none
  | .arr items => if items.length ≤ names.length then some (names.zip items) else none
  | _ => none

def required {α : Type} (fields : List (String × Json)) (name : String)
    (value : Json → Option α) : Option α :=
  fields.lookup name >>= value

/-- A field with a value to fall back on when it is not there. -/
def orElse {α : Type} (fields : List (String × Json)) (name : String) (default : α)
    (value : Json → Option α) : Option α :=
  (fields.lookup name).elim (some default) value

end HostRoster.Json
