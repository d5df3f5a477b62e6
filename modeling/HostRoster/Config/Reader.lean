import HostRoster.Config
import HostRoster.Error
import HostRoster.Json.Decoder
import HostRoster.Yaml.Decoder
import HostRoster.Yaml.Node.Reader

/-!
# Reading a configuration

A configuration is written in YAML; the settings of the service can also be given as
JSON. Settings that are left out have their usual values.
-/
namespace HostRoster

open Yaml (Place)

def ClusterIdentity.ofYaml? (p : Place) : Option ClusterIdentity := do
  let fields ← p.fields? ["id", "name", "environment"]
  return {
    id := ← Place.required fields "id" Place.text?
    name := ← Place.required fields "name" Place.text?
    environment := ← Place.orElse fields "environment" "dev" Place.text? }

def ApiSettings.fieldNames : List String :=
  ["endpoint", "operation_endpoint", "service", "timeout_secs", "poll_interval_secs",
    "operation_timeout_secs", "page_size"]

def ApiSettings.ofYaml? (p : Place) : Option ApiSettings := do
  let fields ← p.fields? fieldNames
  let usual : ApiSettings := {}
  return {
    endpoint := ← Place.orElse fields "endpoint" usual.endpoint Place.text?
    operationEndpoint := ← Place.orElse fields "operation_endpoint" none
      (Place.nullable? Place.text?)
    service := ← Place.orElse fields "service" usual.service Place.text?
    timeout := ← Place.orElse fields "timeout_secs" usual.timeout Place.nat64?
    pollInterval := ← Place.orElse fields "poll_interval_secs" usual.pollInterval Place.nat64?
    operationTimeout := ← Place.orElse fields "operation_timeout_secs" usual.operationTimeout
      Place.nat64?
    pageSize := ← Place.orElse fields "page_size" usual.pageSize Place.nat32? }

def ApiSettings.ofJson? (v : Json) : Option ApiSettings := do
  let fields ← Json.fields? fieldNames v
  let usual : ApiSettings := {}
  return {
    endpoint := ← Json.orElse fields "endpoint" usual.endpoint Json.text?
    operationEndpoint := ← Json.orElse fields "operation_endpoint" none
      (Json.nullable? Json.text?)
    service := ← Json.orElse fields "service" usual.service Json.text?
    timeout := ← Json.orElse fields "timeout_secs" usual.timeout Json.nat64?
    pollInterval := ← Json.orElse fields "poll_interval_secs" usual.pollInterval Json.nat64?
    operationTimeout := ← Json.orElse fields "operation_timeout_secs" usual.operationTimeout
      Json.nat64?
    pageSize := ← Json.orElse fields "page_size" usual.pageSize Json.nat32? }

def StateSettings.ofYaml? (p : Place) : Option StateSettings := do
  let fields ← p.fields? ["backend", "bucket", "prefix", "region", "path"]
  let text (name : String) := Place.orElse fields name none (Place.nullable? Place.text?)
  return {
    backend := ← Place.orElse fields "backend" .files fun v =>
      v.choice? >>= StateBackend.ofLabel?
    bucket := ← text "bucket"
    keyPrefix := ← text "prefix"
    region := ← text "region"
    path := ← text "path" }

def HostSpec.ofYaml? (p : Place) : Option HostSpec := do
  let fields ← p.fields? ["zone", "subnet_id", "assign_public_ip", "replication_source"]
  return {
    zone := ← Place.required fields "zone" Place.text?
    subnetId := ← Place.orElse fields "subnet_id" none (Place.nullable? Place.text?)
    assignPublicIp := ← Place.orElse fields "assign_public_ip" false Place.bool?
    replicationSource := ← Place.orElse fields "replication_source" none
      (Place.nullable? Place.text?) }

def Guardrails.ofYaml? (p : Place) : Option Guardrails := do
  let fields ← p.fields? ["max_hosts", "min_hosts", "deletion_protection"]
  return {
    maxHosts := ← Place.orElse fields "max_hosts" none (Place.nullable? Place.nat32?)
    minHosts := ← Place.orElse fields "min_hosts" none (Place.nullable? Place.nat32?)
    deletionProtection := ← Place.orElse fields "deletion_protection" false Place.bool? }

namespace Config

def ofYaml? (p : Place) : Option Config := do
  let fields ← p.fields?
    ["cluster", "api", "state", "hosts", "guardrails", "reconcile_timeout_secs"]
  return {
    cluster := ← Place.required fields "cluster" ClusterIdentity.ofYaml?
    api := ← Place.orElse fields "api" {} ApiSettings.ofYaml?
    state := ← Place.orElse fields "state" {} StateSettings.ofYaml?
    hosts := ← Place.orElse fields "hosts" ∅ (Place.keyMap? HostSpec.ofYaml?)
    guardrails := ← Place.orElse fields "guardrails" none (Place.nullable? Guardrails.ofYaml?)
    reconcileTimeout := ← Place.orElse fields "reconcile_timeout_secs" none
      (Place.nullable? Place.nat64?) }

def parse (text : String) : Except ConfigError Config :=
  match Yaml.readDocument text >>= fun root => ofYaml? ⟨root, root⟩ with
  | some config => .ok config
  | none => .error (.malformed "YAML parse error: no configuration can be read" none)

end Config

end HostRoster
