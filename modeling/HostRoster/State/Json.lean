import HostRoster.Instant.Json
import HostRoster.Json.Printer
import HostRoster.Json.Reader
import HostRoster.Reconciliation.Report
import HostRoster.State

/-!
# The stored form of a state

A state is stored as indented JSON. The fields of a host's record stand beside its
times.
-/
namespace HostRoster

def RunKind.ofJson? (v : Json) : Option RunKind := Json.choice? v >>= ofLabel?

namespace HostState

def toJson (h : HostState) : Json :=
  .obj (h.record.toFields ++
    [("created_at", h.createdAt.toJson), ("updated_at", h.updatedAt.toJson)])

def timeNames : List String := ["created_at", "updated_at"]

/-- The value of a number's digits with a power of ten. -/
def scaled (digits : List Char) (exponent : Int) : Nat × Nat :=
  let n := Json.ofDigits digits
  if 0 ≤ exponent then (n * Nat.pow 10 exponent.toNat, 1) else (n, Nat.pow 10 exponent.natAbs)

/-- Where the range of numbers that can be held ends: half a step above the greatest number of
53 significant bits. -/
def endOfRange : Nat := Nat.pow 2 1024 - Nat.pow 2 970

/-- Whether a number with a fraction or an exponent lies in the range. -/
def isInRange (text : List Char) : Bool :=
  let unsigned := text.dropWhile (· == '-')
  let (mantissa, tail) := unsigned.span fun c => c != 'e' && c != 'E'
  let (whole, fraction) := mantissa.span Char.isDigit
  let digits := (whole ++ fraction.drop 1).dropWhile (· == '0')
  let sign := tail.drop 1 |>.head?
  let power : Int := Json.ofDigits ((tail.drop 1).filter Char.isDigit)
  let exponent := (if sign == some '-' then -power else power) - (fraction.length - 1 : Nat)
  if digits.isEmpty then true
  else
    let magnitude := exponent + digits.length
    if magnitude ≤ 300 then true
    else if 320 ≤ magnitude then false
    else
      let (n, d) := scaled digits exponent
      n < endOfRange * d

mutual

/-- Whether a value whose meaning is not known can be kept aside: its texts are complete,
its numbers can be held, and it is nested at most `depth` deep. -/
def canKeep : Nat → Json → Bool
  | _, .unpaired => false
  | _, .real text => isInRange text
  | _, .int n => n.natAbs < endOfRange
  | depth, .arr items => depth != 0 && canKeepItems (depth - 1) items
  | depth, .obj fields => depth != 0 && canKeepFields (depth - 1) fields
  | _, _ => true

def canKeepItems : Nat → List Json → Bool
  | _, [] => true
  | depth, v :: rest => canKeep depth v && canKeepItems depth rest

def canKeepFields : Nat → List (String × Json) → Bool
  | _, [] => true
  | depth, (_, v) :: rest => canKeep depth v && canKeepFields depth rest

end

/-- How deep a value beside the times of a host may be nested. -/
def depthLimit : Nat := 124

/-- Reads an object. The fields of the record are only looked at once all others are known
to be readable. -/
def ofJson? (v : Json) : Option HostState := do
  let .obj fields := v | none
  let times ← Json.fields? timeNames v
  let rest := fields.filter fun f => !timeNames.contains f.1
  if !canKeepFields depthLimit rest then none
  return {
    record := ← Json.fields? HostRecord.fieldNames (.obj rest) >>= HostRecord.ofFields?
    createdAt := ← Json.required times "created_at" Instant.ofJson?
    updatedAt := ← Json.required times "updated_at" Instant.ofJson? }

end HostState

namespace HistoryEntry

def toJson (e : HistoryEntry) : Json :=
  .obj [("timestamp", e.timestamp.toJson), ("operation", .str e.operation.label),
    ("config_hash", .str e.configHash), ("hosts", .ofStrings e.hosts),
    ("success", .bool e.success), ("error", .ofOption e.error)]

def ofJson? (v : Json) : Option HistoryEntry := do
  let fields ← Json.fields?
    ["timestamp", "operation", "config_hash", "hosts", "success", "error"] v
  return {
    timestamp := ← Json.required fields "timestamp" Instant.ofJson?
    operation := ← Json.required fields "operation" RunKind.ofJson?
    configHash := ← Json.required fields "config_hash" Json.text?
    hosts := ← Json.required fields "hosts" (Json.list? Json.text?)
    success := ← Json.required fields "success" Json.bool?
    error := ← Json.orElse fields "error" none (Json.nullable? Json.text?) }

end HistoryEntry

namespace ClusterState

def toJson (s : ClusterState) : Json :=
  .obj [("version", .str s.version), ("cluster_id", .str s.clusterId),
    ("cluster_name", .str s.clusterName), ("environment", .str s.environment),
    ("config_hash", .str s.configHash), ("phase", .str s.phase.label),
    ("hosts", .obj (s.hosts.entries.map fun e => (e.1, e.2.toJson))),
    ("last_updated", s.lastUpdated.toJson),
    ("history", .arr (s.history.map HistoryEntry.toJson))]

def ofJson? (v : Json) : Option ClusterState := do
  let fields ← Json.fields? ["version", "cluster_id", "cluster_name", "environment",
    "config_hash", "phase", "hosts", "last_updated", "history"] v
  let text (name : String) := Json.required fields name Json.text?
  return {
    version := ← text "version"
    clusterId := ← text "cluster_id"
    clusterName := ← text "cluster_name"
    environment := ← text "environment"
    configHash := ← text "config_hash"
    phase := ← Json.orElse fields "phase" .planned Phase.ofJson?
    hosts := ← Json.orElse fields "hosts" ∅ (Json.keyMap? HostState.ofJson?)
    lastUpdated := ← Json.required fields "last_updated" Instant.ofJson?
    history := ← Json.orElse fields "history" [] (Json.list? HistoryEntry.ofJson?) }

def document (s : ClusterState) : String := Json.indented s.toJson

def parse (text : String) : Except StateError ClusterState :=
  match Json.parse text >>= ofJson? with
  | some s => .ok s
  | none => .error (.corrupted "Failed to parse state: the document is not a valid state")

end ClusterState

end HostRoster
