import HostRoster.Config.Source
import HostRoster.Report.Message
import HostRoster.Store.Files

/-!
# A first configuration

The files that a directory is started with: a configuration to fill in, an example
of a file of variables, and the names that version control should leave out. Names
are only added to those that are left out already.
-/
namespace HostRoster.Init

def configText : String := Report.lines [
  "# hostsync configuration",
  "#",
  "# Declares the hosts a managed database cluster should have. Each key under",
  "# `hosts` is a stable identity for one host; the remote name is assigned at",
  "# creation and recorded in state.",
  "",
  "cluster:",
  "  id: your-cluster-id",
  "  name: my-database",
  "  environment: dev",
  "",
  "api:",
  "  endpoint: https://mdb.api.cloud.yandex.net",
  "  service: managed-postgresql",
  "  timeout_secs: 30",
  "  poll_interval_secs: 2",
  "  operation_timeout_secs: 1800",
  "",
  "state:",
  "  backend: local",
  "  # backend: s3",
  "  # bucket: my-hostsync-state",
  "  # prefix: my-database/dev",
  "  # region: us-east-1",
  "",
  "hosts:",
  "  primary:",
  "    zone: ru-central1-a",
  "    # subnet_id: your-subnet-id",
  "    assign_public_ip: false",
  "  replica-b:",
  "    zone: ru-central1-b",
  "  # replica-c:",
  "  #   zone: ru-central1-c",
  "  #   replication_source: replica-b",
  "",
  "guardrails:",
  "  min_hosts: 1",
  "  max_hosts: 7",
  "  deletion_protection: false",
  "",
  "# Give up on a reconciliation after this many seconds.",
  "# reconcile_timeout_secs: 3600"]

def variablesText : String := Report.lines [
  "# Copy to .env and fill in.",
  "",
  "# IAM token for the managed database API (required)",
  "HOSTSYNC_API_TOKEN=",
  "",
  "# Optional overrides of hostsync.yaml",
  "# HOSTSYNC_CLUSTER_ID=",
  "# HOSTSYNC_API_ENDPOINT=",
  "# HOSTSYNC_STATE_BUCKET=",
  "# HOSTSYNC_STATE_PREFIX=",
  "",
  "# S3 state backend credentials",
  "# AWS_ACCESS_KEY_ID=",
  "# AWS_SECRET_ACCESS_KEY=",
  "# AWS_REGION=",
  "",
  "# Log level (overrides --verbose)",
  "# RUST_LOG=info"]

/-- The names that version control should leave out. -/
def ignored : List String := [".env", FileStore.usualDirectory ++ "/"]

/-- Whether a name stands on a line of its own, blanks aside. -/
def hasLine (text name : String) : Bool :=
  (Text.splitLines text.toList).any fun line => Text.trim (.ofList line) == name

/-- The names that a text does not have yet. -/
def missingFrom (text : String) : List String := ignored.filter fun name => !hasLine text name

/-- What is added for the names that are missing. -/
def addition (missing : List String) : String := Report.lines (["", "# hostsync"] ++ missing)

/-- The text of the names to leave out, given the one that is there. -/
def ignoreText (existing : Option String) : String :=
  match existing with
  | none => Report.lines ignored
  | some text =>
    match missingFrom text with
    | [] => text
    | missing => text ++ addition missing

/-- A call on a file, whose failure ends the command. -/
def attempt {α : Type} (call : Program Machine (Except String α)) : Job α := ExceptT.mk do
  return (← call).mapError .io

def contains (path : String) : Job Bool := ExceptT.lift (Machine.file (.contains path))

def say (line : String) : Job Unit := ExceptT.lift (Machine.warn line)

/-- Writes a file and says so. -/
def write (path text : String) : Job Unit := do
  attempt (Machine.replaceFile path text)
  say ("Created: " ++ path)

/-- Makes sure that version control leaves out what it should. -/
def writeIgnored (path : String) : Job Unit := do
  if ← contains path then
    let text : String ← attempt (Machine.file (.read path))
    match missingFrom text with
    | [] => return
    | missing =>
      attempt (Machine.file (.append path (addition missing)))
      say ("Updated: " ++ path)
  else write path (ignoreText none)

def nextSteps : List String := [
  "",
  "Next steps:",
  "  1. Copy .env.example to .env and set HOSTSYNC_API_TOKEN",
  "  2. Set the cluster ID and hosts in hostsync.yaml",
  "  3. Run 'hostsync validate' to check the configuration",
  "  4. Run 'hostsync plan' to see what would change",
  "  5. Run 'hostsync apply' to reconcile the cluster"]

/-- Writes the files into a directory. A configuration that is there is kept unless forced. -/
def run (directory : String) (force : Bool) : Job Unit := do
  let configPath := Path.join directory "hostsync.yaml"
  if !force && (← contains configPath) then
    say ("Configuration file already exists: " ++ configPath)
    say "Use --force to overwrite."
  else
    if !(← contains directory) then attempt (Machine.file (.makeDirectory directory))
    write configPath configText
    write (Path.join directory ".env.example") variablesText
    writeIgnored (Path.join directory ".gitignore")
    nextSteps.forM say

end HostRoster.Init
