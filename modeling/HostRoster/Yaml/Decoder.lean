import HostRoster.KeyMap
import HostRoster.Yaml.Node

/-!
# Reading records from YAML

What a scalar means depends on what is asked for: any scalar is a text, and a plain
one may also be a number, a flag or nothing. A record is a mapping; where nothing is
written it has no fields. A field given twice makes it unreadable, and fields of
other names are skipped. The reason for a refusal is not kept.
-/
namespace HostRoster.Yaml

/-- A node within the document whose anchors it may refer to. -/
structure Place where
  root : Node
  node : Node

namespace Place

/-- The node itself, or the one its alias stands for. -/
def target (p : Place) : Node :=
  match p.node with
  | .alias id => (p.root.anchored id).getD .empty
  | n => n

def text? (p : Place) : Option String :=
  match p.target with
  | .scalar _ _ _ text => some text
  | _ => none

def nullTag : String := "tag:yaml.org,2002:null"
def boolTag : String := "tag:yaml.org,2002:bool"
def intTag : String := "tag:yaml.org,2002:int"

/-- The text of a scalar that may stand for more than a text: a plain one, or a literal
block that is tagged so. -/
def literal? (expected : String) (p : Place) : Option String :=
  match p.target with
  | .scalar _ _ .plain text => some text
  | .scalar _ tag .literal text => if tag = some expected then some text else none
  | _ => none

def isNullWord (text : String) : Bool := ["null", "Null", "NULL", "~"].contains text

def bool? (p : Place) : Option Bool := do
  match ← p.literal? boolTag with
  | "true" => return true
  | "True" => return true
  | "TRUE" => return true
  | "false" => return false
  | "False" => return false
  | "FALSE" => return false
  | _ => none

def digit? (base : Nat) (c : Char) : Option Nat := (hexValue c).filter (· < base)

/-- The value of a numeral, which has at least one digit. -/
def numeral? (base : Nat) (digits : List Char) : Option Nat :=
  if digits.isEmpty then none
  else digits.foldlM (fun n c => (digit? base c).map (base * n + ·)) 0

/-- An unsigned integer: in base ten without leading zeros, or in another base behind its
mark. A plus sign may come first. -/
def unsigned? (text : List Char) : Option Nat :=
  let bare := if text.head? = some '+' then text.tail else text
  match bare with
  | '0' :: 'x' :: digits => numeral? 16 digits
  | '0' :: 'o' :: digits => numeral? 8 digits
  | '0' :: 'b' :: digits => numeral? 2 digits
  | digits => if digits.head? = some '0' ∧ digits.length > 1 then none else numeral? 10 digits

def natBelow? (bound : Nat) (p : Place) : Option Nat := do
  (← unsigned? (← p.literal? intTag).toList) |> fun n => if n < bound then some n else none

def nat32? (p : Place) : Option Nat := p.natBelow? 0x100000000

def nat64? (p : Place) : Option Nat := p.natBelow? 0x10000000000000000

/-- A value, or nothing when a plain scalar says so or is empty. -/
def nullable? {α : Type} (value : Place → Option α) (p : Place) : Option (Option α) :=
  match p.target with
  | .scalar _ none .plain text =>
    if text = "" ∨ isNullWord text then some none else (value p).map some
  | .scalar _ (some tag) .plain text =>
    if tag = nullTag then if isNullWord text then some none else none
    else (value p).map some
  | _ => (value p).map some

/-- The entries of a mapping whose keys are texts. -/
def entries? (p : Place) : Option (List (String × Place)) :=
  match p.target with
  | .mapping _ _ entries => entries.mapM fun e => do
    return (← text? ⟨p.root, e.1⟩, ⟨p.root, e.2⟩)
  | .scalar _ _ .plain "" => some []
  | _ => none

/-- A map of texts to values; of two entries with one key the later wins. -/
def keyMap? {α : Type} (value : Place → Option α) (p : Place) : Option (KeyMap String α) := do
  return .ofList (← (← p.entries?).mapM fun e => do return (e.1, ← value e.2))

/-- The fields of a record with the given names. -/
def fields? (names : List String) (p : Place) : Option (List (String × Place)) := do
  let known := (← p.entries?).filter fun e => names.contains e.1
  if (known.map (·.1)).Nodup then some known else none

/-- The name that a tag of a document's own gives: what follows its exclamation mark. -/
def ownName? (tag : String) : Option String :=
  match tag.toList with
  | ['!'] => some "!"
  | '!' :: name => some (.ofList name)
  | _ => none

/-- The name of a choice: a scalar, or the document's own tag on an empty one. -/
def choice? (p : Place) : Option String :=
  match p.target with
  | .scalar _ tag style text =>
    match tag >>= ownName? with
    | some name => if style = .plain ∧ (text = "" ∨ isNullWord text) then some name else none
    | none => some text
  | _ => none

def required {α : Type} (fields : List (String × Place)) (name : String)
    (value : Place → Option α) : Option α :=
  fields.lookup name >>= value

/-- A field with a value to fall back on when it is not there. -/
def orElse {α : Type} (fields : List (String × Place)) (name : String) (default : α)
    (value : Place → Option α) : Option α :=
  (fields.lookup name).elim (some default) value

end Place

end HostRoster.Yaml
