import HostRoster.Config
import HostRoster.Config.Url
import HostRoster.Error
import HostRoster.Text.Blank

/-!
# Checking a configuration

Every rule is tried, and each that fails names the field it is about. A
configuration without hosts is allowed, but worth a warning.
-/
namespace HostRoster

/-- A rule that a field of a configuration breaks. -/
structure Violation where
  field : String
  message : String
deriving DecidableEq, Repr

def Violation.text (v : Violation) : String := v.field ++ ": " ++ v.message

/-- What a check of a configuration found. -/
structure CheckReport where
  errors : List Violation
  warnings : List String
deriving DecidableEq, Repr

def CheckReport.isValid (r : CheckReport) : Bool := r.errors.isEmpty

/-- A violation of a field, unless the rule holds. -/
def unlessHolds (rule : Bool) (field message : String) : List Violation :=
  if rule then [] else [⟨field, message⟩]

def isWithin (low high n : Nat) : Bool := low ≤ n && n ≤ high

def ClusterIdentity.check (c : ClusterIdentity) : List Violation :=
  unlessHolds (c.environment ≠ "") "cluster.environment" "Environment cannot be empty" ++
  unlessHolds (c.id ≠ "") "cluster.id" "Cluster ID cannot be empty" ++
  unlessHolds (isWithin 1 63 c.name.length) "cluster.name" "Cluster name must be 1-63 characters"

def ApiSettings.check (a : ApiSettings) : List Violation :=
  unlessHolds (Url.isAbsolute a.endpoint) "api.endpoint" "API endpoint must be a valid URL" ++
  unlessHolds (a.operationEndpoint.all Url.isAbsolute) "api.operation_endpoint"
    "Operation endpoint must be a valid URL" ++
  unlessHolds (1 ≤ a.operationTimeout) "api.operation_timeout_secs"
    "Operation timeout must be positive" ++
  unlessHolds (isWithin 1 1000 a.pageSize) "api.page_size" "Page size must be 1-1000" ++
  unlessHolds (isWithin 1 300 a.pollInterval) "api.poll_interval_secs"
    "Poll interval must be 1-300 seconds" ++
  unlessHolds (a.service ≠ "") "api.service" "Service cannot be empty" ++
  unlessHolds (isWithin 1 600 a.timeout) "api.timeout_secs"
    "Request timeout must be 1-600 seconds"

def StateSettings.check (s : StateSettings) : List Violation :=
  unlessHolds (s.backend ≠ .s3 || s.bucket.any (· ≠ "")) "state.bucket"
    "S3 bucket name is required when using S3 backend"

def isLower (c : Char) : Bool := 'a' ≤ c && c ≤ 'z'

def isKeyChar (c : Char) : Bool := isLower c || c.isDigit || c == '-'

def hasDoubleHyphen : List Char → Bool
  | '-' :: '-' :: _ => true
  | _ :: rest => hasDoubleHyphen rest
  | [] => false

/-- Whether a text may be the key of a host: small letters, digits and single hyphens
within, and a letter first. -/
def isHostKey (key : String) : Bool :=
  let chars := key.toList
  chars.head?.any isLower && chars.all isKeyChar && chars.getLast? != some '-' &&
    !hasDoubleHyphen chars

/-- The check of a host against the key it is declared under. -/
def HostSpec.check (key : String) (s : HostSpec) : List Violation :=
  let field := "hosts." ++ key
  unlessHolds (isHostKey key) field ("Host key '" ++ key ++
    "' is invalid. Must be lowercase alphanumeric with hyphens.") ++
  unlessHolds (!Text.isBlankText s.zone) (field ++ ".zone") "Zone cannot be empty" ++
  unlessHolds (s.subnetId.all (!Text.isBlankText ·)) (field ++ ".subnet_id")
    "Subnet ID cannot be empty when set" ++
  match s.replicationSource with
  | none => []
  | some source =>
    if Text.isBlankText source then
      [⟨field ++ ".replication_source", "Replication source cannot be empty when set"⟩]
    else unlessHolds (source ≠ key) (field ++ ".replication_source")
      ("Host '" ++ key ++ "' cannot replicate from itself")

/-- The check of the limits themselves and of a number of declared hosts against them. -/
def Guardrails.check (g : Guardrails) (declared : Nat) : List Violation :=
  (match g.minHosts, g.maxHosts with
    | some low, some high =>
      unlessHolds (low ≤ high) "guardrails.min_hosts"
        ("min_hosts (" ++ toString low ++ ") is greater than max_hosts (" ++ toString high ++ ")")
    | _, _ => []) ++
  (g.maxHosts.elim [] fun high =>
    unlessHolds (declared ≤ high) "guardrails.max_hosts"
      ("Configuration declares " ++ toString declared ++ " hosts but max_hosts is " ++
        toString high)) ++
  (g.minHosts.elim [] fun low =>
    unlessHolds (low ≤ declared) "guardrails.min_hosts"
      ("Configuration declares " ++ toString declared ++ " hosts but min_hosts is " ++
        toString low))

namespace Config

/-- Tries every rule. -/
def check (c : Config) : CheckReport where
  errors :=
    c.cluster.check ++ c.api.check ++ c.state.check ++
    (c.hosts.entries.flatMap fun e => e.2.check e.1) ++
    (c.guardrails.elim [] fun g => g.check c.hosts.size) ++
    unlessHolds (c.reconcileTimeout ≠ some 0) "reconcile_timeout_secs"
      "Reconcile timeout must be positive"
  warnings := if c.hosts.isEmpty then ["No hosts defined in configuration"] else []

/-- The report of a configuration without errors; otherwise the first error. -/
def validate (c : Config) : Except ConfigError CheckReport :=
  match c.check.errors with
  | [] => .ok c.check
  | v :: _ => .error (.invalid v.message (some v.field))

end Config

end HostRoster
