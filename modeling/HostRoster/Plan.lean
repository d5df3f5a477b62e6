import HostRoster.Diff
import HostRoster.Guardrails

/-!
# Plans

A plan lists the actions of a difference in the order they are carried out:
creates, then updates, then deletes, so that capacity is added before any is
taken away. It is checked against the guardrails when it is made.
-/
namespace HostRoster

inductive Action where
  | create (key : String) (spec : HostSpec)
  | update (u : HostUpdate)
  | delete (name : String)
deriving DecidableEq, Repr

namespace Action

def word : Action → String
  | create .. => "create"
  | update _ => "update"
  | delete _ => "delete"

/-- The key the action concerns, else the host's name. -/
def target : Action → String
  | create key _ => key
  | update u => u.key
  | delete name => name

def reason : Action → String
  | create .. => "Host defined in configuration"
  | update u => "Changed: " ++ u.mask
  | delete _ => "Host not in configuration"

def description : Action → String
  | create key spec => "Create host '" ++ key ++ "' in " ++ spec.zone
  | update u => "Update host '" ++ u.key ++ "' (" ++ u.name ++ ")"
  | delete name => "Delete host '" ++ name ++ "'"

def line (a : Action) : String := a.description ++ " (" ++ a.reason ++ ")"

def creates? : Action → Option (String × HostSpec)
  | create key spec => some (key, spec)
  | _ => none

def updates? : Action → Option HostUpdate
  | update u => some u
  | _ => none

def deletes? : Action → Option String
  | delete name => some name
  | _ => none

end Action

structure HostPlan where
  /-- Hash of the configuration the plan was made for. -/
  configHash : String
  actions : List Action
  /-- Number of hosts listed when the plan was made. -/
  currentHosts : Nat
  /-- Number of hosts that stay as they are. -/
  unchanged : Nat
  violations : List String
deriving DecidableEq, Repr

/-- The actions of a difference, in the order they are carried out. -/
def HostDiff.actions (d : HostDiff) : List Action :=
  d.toCreate.entries.map (fun e => .create e.1 e.2) ++ d.toUpdate.map .update ++
    d.toDelete.map .delete

/-- The number of hosts left when some are added to and some are removed from a cluster. -/
def hostsAfter (current created deleted : Nat) : Nat := current + created - deleted

/-- How a plan that leaves `resulting` hosts and deletes some breaks the guardrails. -/
def Guardrails.violations (g : Guardrails) (resulting deleted : Nat) : List String :=
  (match g.maxHosts with
    | some bound =>
      if resulting > bound then
        ["Plan results in " ++ toString resulting ++ " host(s) but max_hosts is " ++
          toString bound]
      else []
    | none => []) ++
  (match g.minHosts with
    | some bound =>
      if resulting < bound then
        ["Plan results in " ++ toString resulting ++ " host(s) but min_hosts is " ++
          toString bound]
      else []
    | none => []) ++
  (if g.deletionProtection && deleted > 0 then
    ["Deletion protection is enabled but the plan deletes " ++ toString deleted ++ " host(s)"]
  else [])

namespace HostPlan

/-- The plan for a difference on a cluster of `current` hosts. -/
def ofDiff (d : HostDiff) (current : Nat) (guardrails : Option Guardrails) (hash : String) :
    HostPlan where
  configHash := hash
  actions := d.actions
  currentHosts := current
  unchanged := d.unchanged.length
  violations := guardrails.elim [] fun g =>
    g.violations (hostsAfter current d.toCreate.size d.toDelete.length) d.toDelete.length

def creates (p : HostPlan) : List (String × HostSpec) := p.actions.filterMap Action.creates?

def updates (p : HostPlan) : List HostUpdate := p.actions.filterMap Action.updates?

def deletes (p : HostPlan) : List String := p.actions.filterMap Action.deletes?

def isEmpty (p : HostPlan) : Bool := p.actions.isEmpty

def resultingHosts (p : HostPlan) : Nat :=
  hostsAfter p.currentHosts p.creates.length p.deletes.length

def passesGuardrails (p : HostPlan) : Bool := p.violations.isEmpty

/-- Refuses a plan that breaks a guardrail. -/
def ensureGuardrails (p : HostPlan) : Except PlanError Unit :=
  if p.passesGuardrails then .ok () else .error (.guardrails p.violations)

/-- The plan as numbered lines. -/
def text (p : HostPlan) : String :=
  if p.actions.isEmpty then "No changes required"
  else
    let lines := p.actions.mapIdx fun i a => "  " ++ toString (i + 1) ++ ". " ++ a.line ++ "\n"
    let broken := p.violations.map fun v => "  - " ++ v ++ "\n"
    "Host Plan (" ++ toString p.actions.length ++ " actions):\n" ++ String.join lines ++
      if p.violations.isEmpty then "" else "\nGuardrail violations:\n" ++ String.join broken

end HostPlan

end HostRoster
