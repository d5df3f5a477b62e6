import HostRoster.Config.Fingerprint
import HostRoster.Plan.Json
import HostRoster.Report.Message
import HostRoster.Report.Table

/-!
# Showing a plan

People see the actions as a numbered table; a long reason is cut to fit it.
-/
namespace HostRoster

namespace Report

/-- The longest reason that a table shows in full. -/
def reasonLimit : Nat := 48

/-- A text of at most `limit` characters, with dots for what is cut off. -/
def truncate (limit : Nat) (text : String) : String :=
  if text.length ≤ limit then text else .ofList (text.toList.take (limit - 3)) ++ "..."

/-- The kind of an action, behind a sign. -/
def actionLabel : Action → String
  | .create .. => "+create"
  | .update _ => "~update"
  | .delete _ => "-delete"

def actionRow (number : Nat) (a : Action) : List String :=
  [toString number, actionLabel a, a.target, truncate reasonLimit a.reason]

/-- A plan as a table, its counts, and the guardrails it breaks. -/
def planText (p : HostPlan) : String :=
  if p.isEmpty then Level.success.mark ++ " No changes required, hosts are up to date.\n"
  else
    let rows := p.actions.mapIdx fun i a => actionRow (i + 1) a
    lines ["", "Host plan", "   Config hash: " ++ Fingerprint.short p.configHash, "",
      Table.render (["#", "Action", "Host", "Reason"] :: rows), "",
      "Plan: " ++ toString p.creates.length ++ " to create, " ++ toString p.updates.length ++
        " to update, " ++ toString p.deletes.length ++ " to delete (" ++
        toString p.unchanged ++ " unchanged)"] ++
    if p.passesGuardrails then ""
    else lines ["", Level.warning.mark ++ " Guardrail violations:"] ++ bullets p.violations

def plan (format : Format) (createdAt : Instant) (p : HostPlan) : String :=
  match format with
  | .text => planText p
  | .json => Json.indented (p.toJson createdAt)

end Report

end HostRoster
