/-!
# Guardrails

Limits that a plan has to keep before anything is changed.
-/
namespace HostRoster

/-- Bounds on the number of hosts, and whether hosts may be deleted at all. -/
structure Guardrails where
  maxHosts : Option Nat := none
  minHosts : Option Nat := none
  deletionProtection : Bool := false
deriving DecidableEq, Repr, Inhabited

end HostRoster
