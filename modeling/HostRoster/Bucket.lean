import HostRoster.Host

/-!
# Buckets of waiting keys

Each class of hosts has a stack of keys that wait for a host of that class. A
host takes the latest key of its own class; a host with a subnet may also take
one from the class that leaves the subnet open.
-/
namespace HostRoster

/-- A stack of waiting keys for every class, the latest first. -/
structure Buckets where
  byClass : KeyMap HostClass (List String)
deriving DecidableEq

namespace Buckets

def empty : Buckets := ⟨∅⟩

def stack (b : Buckets) (c : HostClass) : List String := (b.byClass.get? c).getD []

/-- The keys of a class in the order they were put in. -/
def waiting (b : Buckets) (c : HostClass) : List String := (b.stack c).reverse

/-- Puts a key on the stack of its class. -/
def push (b : Buckets) (c : HostClass) (key : String) : Buckets :=
  ⟨b.byClass.insert c (key :: b.stack c)⟩

/-- Takes the latest key of one class. The class stays known when its stack runs empty. -/
def pop (b : Buckets) (c : HostClass) : Option (String × Buckets) :=
  match b.stack c with
  | [] => none
  | key :: rest => some (key, ⟨b.byClass.insert c rest⟩)

/-- Takes a key for a host of a class: from its own stack first, else from the
stack that leaves the subnet open. -/
def take (b : Buckets) (c : HostClass) : Option (String × Buckets) :=
  (b.pop c).or (if c.subnetId.isSome then b.pop c.withoutSubnet else none)

def size (b : Buckets) : Nat := b.byClass.values.flatten.length

def isEmpty (b : Buckets) : Bool := b.byClass.values.all List.isEmpty

def classCount (b : Buckets) : Nat := b.byClass.size

/-- The buckets of a declaration, filled in key order. -/
def ofDeclaration (d : Declaration) : Buckets :=
  d.entries.foldl (fun b e => b.push e.2.hostClass e.1) empty

end Buckets

end HostRoster
