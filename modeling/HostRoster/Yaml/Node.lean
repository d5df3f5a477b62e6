import HostRoster.Yaml.Scalar

/-!
# Nodes

A document is a tree of scalars, sequences and mappings. A node that carries an
anchor can be used again by an alias; anchors are told apart by number.
-/
namespace HostRoster.Yaml

inductive Node where
  | scalar (anchor : Option Nat) (tag : Option String) (style : Style) (text : String)
  | sequence (anchor : Option Nat) (tag : Option String) (items : List Node)
  | mapping (anchor : Option Nat) (tag : Option String) (entries : List (Node × Node))
  | alias (anchor : Nat)
deriving Repr, Inhabited

namespace Node

/-- What stands where nothing is written. -/
def empty : Node := .scalar none none .plain ""

mutual

/-- The last node in the order of the text that carries an anchor. -/
def anchored (id : Nat) : Node → Option Node
  | .scalar a tag style text => if a = some id then some (.scalar a tag style text) else none
  | .sequence a tag items =>
    (anchoredItem id items).or (if a = some id then some (.sequence a tag items) else none)
  | .mapping a tag entries =>
    (anchoredEntry id entries).or (if a = some id then some (.mapping a tag entries) else none)
  | .alias _ => none

def anchoredItem (id : Nat) : List Node → Option Node
  | [] => none
  | n :: rest => (anchoredItem id rest).or (anchored id n)

def anchoredEntry (id : Nat) : List (Node × Node) → Option Node
  | [] => none
  | (k, v) :: rest => (anchoredEntry id rest).or ((anchored id v).or (anchored id k))

end

end Node

end HostRoster.Yaml
