import HostRoster.KeyMap

/-!
# JSON values

Objects keep their fields in the order written, repeated names included, so a
reader of records can refuse a repeated field. Numbers without fraction or
exponent are exact integers; every other number keeps its text.
-/
namespace HostRoster

inductive Json where
  | null
  | bool (value : Bool)
  | int (value : Int)
  /-- A number with a fraction or an exponent, or a negative zero. -/
  | real (text : List Char)
  | str (text : String)
  /-- A string with an escaped surrogate that has no partner, so it names no text. -/
  | unpaired
  | arr (items : List Json)
  | obj (fields : List (String × Json))
deriving Repr, Inhabited

namespace Json

/-- A string, or null when there is none. -/
def ofOption (text : Option String) : Json := text.elim .null .str

def ofNat (n : Nat) : Json := .int n

def ofStrings (texts : List String) : Json := .arr (texts.map .str)

/-- A number, or null when there is none. -/
def ofNat? (n : Option Nat) : Json := n.elim .null ofNat

/-- A map as an array of pairs, in the order of its keys. -/
def ofPairs {α : Type} (f : α → Json) (m : KeyMap String α) : Json :=
  .arr (m.entries.map fun e => .arr [.str e.1, f e.2])

/-- A field that is left out when its value is unset. -/
def fieldOfOption (name : String) (text : Option String) : List (String × Json) :=
  text.toList.map fun t => (name, .str t)

/-- An object whose fields are put in name order. -/
def sortedObj (fields : List (String × Json)) : Json :=
  .obj (fields.mergeSort fun a b => a.1 ≤ b.1)

end Json

end HostRoster
