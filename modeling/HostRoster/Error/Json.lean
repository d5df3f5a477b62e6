import HostRoster.Error
import HostRoster.Host.Json

/-!
# Errors in JSON

An error is shown with a code for its kind, its wording and what can be done about
it. It is read from its code and the details of its kind.
-/
namespace HostRoster

def ConfigError.code : ConfigError → String
  | notFound _ => "FileNotFound"
  | malformed .. => "ParseError"
  | invalid .. => "ValidationError"
  | missingVariable _ => "MissingEnvVar"

def StateError.code : StateError → String
  | corrupted _ => "Corrupted"
  | lockFailed _ => "LockFailed"
  | lockedByOther .. => "LockedByOther"
  | fileStore _ => "LocalError"
  | objectStore _ => "S3Error"
  | serialization _ => "SerializationError"
  | clusterMismatch .. => "ClusterMismatch"

def ApiError.code : ApiError → String
  | unauthenticated _ => "AuthenticationFailed"
  | refused .. => "ApiRequestFailed"
  | rateLimited _ => "RateLimited"
  | clusterNotFound _ => "ClusterNotFound"
  | network _ => "NetworkError"
  | invalidResponse _ => "InvalidResponse"
  | operationFailed .. => "OperationFailed"
  | operationTimeout .. => "OperationTimeout"

def PlanError.code : PlanError → String
  | guardrails _ => "GuardrailViolation"
  | deletionProtected _ => "DeletionProtected"

def ReconcileError.code : ReconcileError → String
  | countMismatch .. => "CountMismatch"
  | unmappable .. => "UnmappableHost"
  | placementChanged .. => "ImmutablePlacementChanged"
  | missingName _ => "MissingAssignedName"
  | missingAfterApply _ => "HostsMissingAfterApply"
  | deadlineExceeded _ => "DeadlineExceeded"
  | aborted _ => "Aborted"

namespace SyncError

/-- The area of an error and its kind within the area. -/
def code : SyncError → String
  | config e => "Config." ++ e.code
  | state e => "State." ++ e.code
  | api e => "Api." ++ e.code
  | plan e => "Plan." ++ e.code
  | reconcile e => "Reconcile." ++ e.code
  | remote .. => "Reconcile.RemoteOperationFailed"
  | io _ => "Io"
  | internal _ => "Internal"

/-- The fields that every error shows; the wording may be shown in a shorter form. -/
def commonFields (shorten : String → String) (e : SyncError) : List (String × Json) :=
  [("error", .str e.code), ("message", .str (shorten e.message)),
    ("retryable", .bool e.isRetryable), ("retry_delay_secs", .ofNat? e.retryDelaySecs)]

def toJson (shorten : String → String) (e : SyncError) : Json :=
  match e with
  | remote _ _ source => .obj (e.commonFields shorten ++ [("source", source.toJson shorten)])
  | config (.invalid _ field) => .obj (e.commonFields shorten ++ [("field", .ofOption field)])
  | _ => .obj (e.commonFields shorten)

end SyncError

def ConfigError.ofJson? (v : Json) (code : String) : Option ConfigError := do
  let text := Json.textField v
  match code with
  | "FileNotFound" => return .notFound (← text "path")
  | "ParseError" => return .malformed (← text "message") (← Json.textField? v "location")
  | "ValidationError" => return .invalid (← text "message") (← Json.textField? v "field")
  | "MissingEnvVar" => return .missingVariable (← text "name")
  | _ => failure

def StateError.ofJson? (v : Json) (code : String) : Option StateError := do
  let text := Json.textField v
  match code with
  | "Corrupted" => return .corrupted (← text "message")
  | "LockFailed" => return .lockFailed (← text "message")
  | "LockedByOther" => return .lockedByOther (← text "holder") (← text "since")
  | "LocalError" => return .fileStore (← text "message")
  | "S3Error" => return .objectStore (← text "message")
  | "SerializationError" => return .serialization (← text "message")
  | "ClusterMismatch" => return .clusterMismatch (← text "expected") (← text "found")
  | _ => failure

def ApiError.ofJson? (v : Json) (code : String) : Option ApiError := do
  let text := Json.textField v
  let nat := Json.natField v
  match code with
  | "AuthenticationFailed" => return .unauthenticated (← text "message")
  | "ApiRequestFailed" => return .refused (← nat "status") (← text "message")
  | "RateLimited" => return .rateLimited (← nat "retry_after_secs")
  | "ClusterNotFound" => return .clusterNotFound (← text "cluster_id")
  | "NetworkError" => return .network (← text "message")
  | "InvalidResponse" => return .invalidResponse (← text "message")
  | "OperationFailed" =>
    let code ← Json.optional v "code" 0 Json.int32?
    return .operationFailed (← text "operation_id") code (← text "message")
  | "OperationTimeout" => return .operationTimeout (← text "operation_id") (← nat "waited_secs")
  | _ => failure

def PlanError.ofJson? (v : Json) (code : String) : Option PlanError := do
  match code with
  | "GuardrailViolation" => return .guardrails (← Json.listField v "violations" Json.text?)
  | "DeletionProtected" => return .deletionProtected (← Json.natField v "hosts")
  | _ => failure

def ReconcileError.ofJson? (v : Json) (code : String) : Option ReconcileError := do
  let text := Json.textField v
  let nat := Json.natField v
  match code with
  | "CountMismatch" => return .countMismatch (← nat "requested") (← nat "returned")
  | "UnmappableHost" =>
    let subnet ← Json.textField? v "subnet_id"
    let c : HostClass := ⟨← text "zone", subnet, ← Json.boolField v "assign_public_ip" false⟩
    return .unmappable (← text "name") c
  | "ImmutablePlacementChanged" =>
    let field ← HostField.ofLabel? (← text "field")
    return .placementChanged (← text "key") (← text "name") field (← text "desired")
      (← text "actual")
  | "MissingAssignedName" => return .missingName (← text "key")
  | "HostsMissingAfterApply" =>
    return .missingAfterApply (← Json.listField v "keys" Json.text?)
  | "DeadlineExceeded" => return .deadlineExceeded (← nat "timeout_ms")
  | "Aborted" => return .aborted (← text "reason")
  | _ => failure

namespace SyncError

/-- Reads an error that is not the failure of a call. -/
def ofCode? (v : Json) (code : String) : Option SyncError := do
  match code.splitOn "." with
  | ["Config", kind] => config <$> ConfigError.ofJson? v kind
  | ["State", kind] => state <$> StateError.ofJson? v kind
  | ["Api", kind] => api <$> ApiError.ofJson? v kind
  | ["Plan", kind] => plan <$> PlanError.ofJson? v kind
  | ["Reconcile", kind] => reconcile <$> ReconcileError.ofJson? v kind
  | ["Io"] => return io (← Json.textField v "message")
  | ["Internal"] => return internal (← Json.textField v "message")
  | _ => failure

/-- Reads an error whose sources are nested at most `depth` deep. -/
def ofJsonWithin? : Nat → Json → Option SyncError
  | 0, _ => none
  | depth + 1, v => do
    let code ← Json.textField v "kind"
    if code = "Reconcile.RemoteOperationFailed" then
      let operation ← RemoteOperation.ofLabel? (← Json.textField v "operation")
      return remote operation (← Json.textField v "target")
        (← ofJsonWithin? depth (Json.field v "source"))
    else ofCode? v code

/-- How deep documents are nested at most. -/
def depthLimit : Nat := 128

def ofJson? (v : Json) : Option SyncError := ofJsonWithin? depthLimit v

end SyncError

end HostRoster
