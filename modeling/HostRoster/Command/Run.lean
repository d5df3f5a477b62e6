import HostRoster.Command.Arguments
import HostRoster.Command.Context
import HostRoster.Command.Init
import HostRoster.Report.Check
import HostRoster.Report.Plan
import HostRoster.Report.Run
import HostRoster.Report.State
import HostRoster.Report.Status

/-!
# Running a command

What is asked for goes to the output, what is said on the way to the messages. A
command that fails ends with the wording of its error.
-/
namespace HostRoster

namespace Invocation

/-- A plan as it is shown now. -/
def shownPlan (i : Invocation) (p : HostPlan) : Job String := do
  return Report.plan i.format (← ExceptT.lift Machine.now) p

/-- A name for the holder of a lock that this run takes. -/
def newHolder : Job String := ExceptT.lift do
  return madeUpHolder (← Machine.processName) (← Machine.freshId)

/-- Asks a question. Blanks around the answer and the case of its letters do not count. -/
def confirm (question expected : String) : Job Bool := do
  let answer : String ← ExceptT.lift (Machine.question question)
  return (Text.trim answer).toLower == expected

def storeName : StateBackend → String
  | .files => "Local"
  | .s3 => "S3"

/-- What a valid configuration says. -/
def summary (c : Config) : List String := [
  "",
  "Configuration summary:",
  "  Cluster: " ++ c.qualifiedName ++ " (" ++ c.cluster.id ++ ")",
  "  Hosts: " ++ ", ".intercalate c.hosts.keys,
  "  State backend: " ++ storeName c.state.backend]

def validate (i : Invocation) (warnings : Bool) : Job Unit := do
  let config ← Job.ofConfig (Config.load (← Context.resolve i.configPath))
  let report := config.check
  Job.print (Report.check i.format report warnings)
  if report.isValid then (summary config).forM Job.warn
  let _ ← Job.ofResult (config.validate.mapError .config)

def plan (i : Invocation) : Job Unit := do
  let (c, client) ← Context.loadWithClient i.configPath
  Job.print (← i.shownPlan (← c.makePlan client))

/-- Whether a plan may be carried out: it is empty, approved before, or approved now. -/
def approve (i : Invocation) (approved : Bool) (p : HostPlan) : Job Bool := do
  if p.isEmpty then return true
  else
    Job.warn (← i.shownPlan p)
    if approved then return true
    else confirm "Do you want to apply this plan? [y/N]: " "y"

def apply (i : Invocation) (approved : Bool) : Job Unit := do
  let (c, client) ← Context.loadWithClient i.configPath
  let preview ← c.makePlan client
  let _ ← Job.ofResult (preview.ensureGuardrails.mapError .plan)
  if ← i.approve approved preview then
    let outcome ← c.runErrand client (Errand.apply c.target (← newHolder))
    Job.print (Report.outcome i.format outcome)
  else Job.warn "Apply cancelled."

def status (i : Invocation) : Job Unit := do
  let (c, client) ← Context.loadWithClient i.configPath
  let known ← c.recordedHosts client
  let listed : List ListedHost ← ExceptT.mk do
    return (← (client.listHosts c.cluster).interpret Machine.network).mapError .api
  Job.print (Report.status i.format (summarize c.cluster listed known))

def drift (i : Invocation) : Job Unit := do
  let (c, client) ← Context.loadWithClient i.configPath
  let prior ← c.recordedHosts client
  let report : DriftReport ← ExceptT.mk (c.carryOut client (.checkDrift c.config.hosts prior))
  Job.print (Report.drift i.format report)

/-- Whether everything may be deleted. -/
def approveDestroy (approved : Bool) (cluster : String) : Job Bool := do
  if approved then return true
  else
    Job.warn ("Every host of cluster " ++ cluster ++ " will be deleted.")
    confirm "This action is IRREVERSIBLE. Type 'destroy' to confirm: " "destroy"

def destroy (i : Invocation) (approved : Bool) : Job Unit := do
  let (c, client) ← Context.loadWithClient i.configPath
  if ← approveDestroy approved c.cluster then
    let outcome ← c.runErrand client (Errand.destroy c.target (← newHolder))
    Job.print (Report.outcome i.format outcome)
  else Job.warn "Destruction cancelled."

/-- Gives back a lock for its holder. -/
def unlock (b : Backend) (holder : Option String) (force : Bool) : Job String := do
  if force then
    Job.ofStore (b.perform .forceUnlock)
    return "State forcefully unlocked."
  else
    let stored : Option Lock ← Job.ofStore (b.perform .lockInfo)
    match stored with
    | none => return "State is not locked."
    | some lock =>
      if holder = some lock.holder then
        Job.ofStore (b.perform (.release lock.id))
        return "State unlocked."
      else throw (.state lock.heldError)

def state (i : Invocation) (command : StateCommand) : Job Unit := do
  let c ← Context.load i.configPath
  match command with
  | .show =>
    let stored : Option ClusterState ← Job.ofStore (c.backend.perform .load)
    Job.print (stored.elim (Report.message i.format .warning "No state found.")
      (Report.state i.format))
  | .lock holder =>
    let holder ← holder.elim newHolder pure
    let lock : Lock ← Job.ofStore (c.backend.perform (.acquire holder))
    Job.print (Report.message i.format .success
      ("State locked by " ++ lock.holder ++ " until " ++ lock.expiresAt.display))
  | .unlock holder force =>
    Job.print (Report.message i.format .success (← unlock c.backend holder force))

def run (i : Invocation) : Job Unit :=
  match i.command with
  | .init directory force => Init.run directory force
  | .validate warnings => i.validate warnings
  | .plan => i.plan
  | .apply approved => i.apply approved
  | .status => i.status
  | .drift => i.drift
  | .destroy approved => i.destroy approved
  | .state command => i.state command

end Invocation

namespace Command

def versionNumber : String := "0.1.0"

def usage : String := "Usage: hostsync [OPTIONS] <COMMAND>"

def helpText : String := "\n".intercalate [
  "Declarative host management for managed database clusters",
  "",
  usage,
  "",
  "Commands:",
  "  init [PATH] [-f|--force]       Write a starter configuration",
  "  validate [-w|--warnings]       Validate the configuration",
  "  plan                           Compute and display the host plan",
  "  apply [-y|--yes]               Reconcile the cluster's hosts to the configuration",
  "  status                         Show the recorded hosts with their remote status",
  "  drift                          Compare the configuration with the live cluster",
  "  destroy [-y|--yes]             Delete every host of the cluster",
  "  state show                     Show current state",
  "  state lock [--holder NAME]     Lock the state",
  "  state unlock [--holder NAME] [--force]",
  "                                 Unlock the state",
  "",
  "Options:",
  "  -c, --config <CONFIG>          Path to the configuration file [env: HOSTSYNC_CONFIG]",
  "  -v, --verbose                  Enable verbose output",
  "      --output <OUTPUT>          Output format: text or json",
  "  -h, --help                     Print help",
  "  -V, --version                  Print version"]

/-- Answers a command line that asks for no command and gives the exit code. -/
def answerStop : Arguments.Stop → Program Machine Nat
  | .help => do
    Machine.print helpText
    return 0
  | .version commands => do
    Machine.print ("-".intercalate commands ++ " " ++ versionNumber)
    return 0
  | .misuse reason => do
    Machine.warn ("error: " ++ reason ++ "\n\n" ++ usage)
    return 2

/-- Carries out a command line and gives the exit code. -/
def answer (words : List String) : Program Machine Nat := do
  match Arguments.parse (← Machine.lookup "HOSTSYNC_CONFIG") words with
  | .error stop => answerStop stop
  | .ok i =>
    match ← i.run.run with
    | .ok _ => return 0
    | .error e =>
      Machine.warn ("Error: " ++ e.message)
      return 1

end Command

end HostRoster
