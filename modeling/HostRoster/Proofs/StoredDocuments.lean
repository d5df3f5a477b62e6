import HostRoster.Proofs.KeyMap
import HostRoster.Proofs.Locks
import HostRoster.State.Json

/-!
# Documents that are read back

The record of a cluster is the only link from keys to the names that hosts were given, so
nothing of it may be lost when it is written down. Every part of the record is plain JSON,
and each part is read back from the fields it was written to, with the optional ones left
out.
-/
namespace HostRoster

namespace Json

/-- Items that are read back one by one are read back together. -/
theorem mapM_map {α β : Type} {write : α → β} {read : β → Option α} {items : List α}
    (each : ∀ item ∈ items, read (write item) = some item) :
    (items.map write).mapM read = some items := by
  induction items with
  | nil => rfl
  | cons item items ih =>
    rw [List.forall_mem_cons] at each
    simp [each.1, ih each.2]

theorem list?_arr {α : Type} {write : α → Json} {read : Json → Option α} {items : List α}
    (each : ∀ item ∈ items, read (write item) = some item) :
    list? read (.arr (items.map write)) = some items :=
  mapM_map each

theorem keyMap?_obj {α : Type} {write : α → Json} {read : Json → Option α} {m : KeyMap String α}
    (each : ∀ e ∈ m.entries, read (write e.2) = some e.2) :
    keyMap? read (.obj (m.entries.map fun e => (e.1, write e.2))) = some m := by
  have fields : (m.entries.map fun e => (e.1, write e.2)).mapM
      (fun f => do return (f.1, ← read f.2)) = some m.entries :=
    mapM_map fun e he => by simp [each e he]
  rw [keyMap?, fields, Option.bind_eq_bind, Option.bind_some, KeyMap.ofList_entries]
  rfl

theorem nullable?_ofOption (text : Option String) : nullable? text? (ofOption text) = some text := by
  cases text <;> rfl

theorem plain_ofOption (text : Option String) : Plain (ofOption text) := by
  cases text
  · exact .null
  · exact .str _

theorem plain_ofStrings (texts : List String) : Plain (ofStrings texts) := by
  refine .arr fun v hv => ?_
  obtain ⟨text, -, rfl⟩ := List.mem_map.1 hv
  exact .str text

theorem plain_fieldOfOption {name : String} {text : Option String} {f : String × Json}
    (h : f ∈ fieldOfOption name text) : Plain f.2 := by
  obtain ⟨t, -, rfl⟩ := List.mem_map.1 h
  exact .str t

end Json

theorem Phase.ofJson?_label (p : Phase) : Phase.ofJson? (.str p.label) = some p := by
  cases p <;> rfl

theorem RunKind.ofJson?_label (k : RunKind) : RunKind.ofJson? (.str k.label) = some k := by
  cases k <;> rfl

theorem Instant.ofJson?_toJson {t : Instant} (dated : t.Dated) : ofJson? t.toJson = some t := by
  rw [ofJson?, toJson, Json.text?, Option.bind_eq_bind, Option.bind_some, parse_stored dated]

theorem HostRecord.plain_toFields (r : HostRecord) : ∀ f ∈ r.toFields, Json.Plain f.2 := by
  intro f hf
  simp only [toFields, HostSpec.toFields, List.mem_append, List.mem_singleton] at hf
  rcases hf with (((rfl | subnet) | rfl) | source) | name
  · exact .str _
  · exact Json.plain_fieldOfOption subnet
  · exact .bool _
  · exact Json.plain_fieldOfOption source
  · exact Json.plain_fieldOfOption name

namespace HostState

/-- The times of the host are instants of the calendar. -/
structure Dated (h : HostState) : Prop where
  created : h.createdAt.Dated
  updated : h.updatedAt.Dated

instance (h : HostState) : Decidable h.Dated :=
  decidable_of_iff (h.createdAt.Dated ∧ h.updatedAt.Dated)
    ⟨fun d => ⟨d.1, d.2⟩, fun d => ⟨d.created, d.updated⟩⟩

theorem plain_toJson (h : HostState) : Json.Plain h.toJson := by
  refine .obj fun f hf => ?_
  rcases List.mem_append.1 hf with record | times
  · exact h.record.plain_toFields f record
  · simp only [List.mem_cons, List.not_mem_nil, or_false] at times
    rcases times with rfl | rfl <;> exact .str _

/-- The fields of the record and the times stand beside each other and have no name in common. -/
theorem ofJson?_toJson {h : HostState} (dated : h.Dated) : ofJson? h.toJson = some h := by
  have created := Instant.ofJson?_toJson dated.created
  have updated := Instant.ofJson?_toJson dated.updated
  obtain ⟨⟨⟨zone, subnet, public_, source⟩, name⟩, createdAt, updatedAt⟩ := h
  cases subnet <;> cases source <;> cases name <;>
    simp [ofJson?, toJson, HostRecord.toFields, HostSpec.toFields, Json.fieldOfOption, Json.fields?,
      timeNames, canKeepFields, canKeep, HostRecord.fieldNames, HostSpec.fieldNames,
      HostRecord.ofFields?, HostSpec.ofFields?, Json.required, Json.orElse, List.lookup_cons,
      Json.text?, Json.bool?, Json.nullable?, HostSpec.named, created, updated]

end HostState

namespace HistoryEntry

theorem plain_toJson (e : HistoryEntry) : Json.Plain e.toJson := by
  refine .obj fun f hf => ?_
  simp only [List.mem_cons, List.not_mem_nil, or_false] at hf
  rcases hf with rfl | rfl | rfl | rfl | rfl | rfl
  · exact .str _
  · exact .str _
  · exact .str _
  · exact Json.plain_ofStrings _
  · exact .bool _
  · exact Json.plain_ofOption _

theorem ofJson?_toJson {e : HistoryEntry} (dated : e.timestamp.Dated) :
    ofJson? e.toJson = some e := by
  have timestamp := Instant.ofJson?_toJson dated
  have hosts : Json.list? Json.text? (Json.ofStrings e.hosts) = some e.hosts :=
    Json.list?_arr fun _ _ => rfl
  simp [ofJson?, toJson, Json.fields?, Json.required, Json.orElse, List.lookup_cons, Json.text?,
    Json.bool?, Json.nullable?_ofOption, RunKind.ofJson?_label, timestamp, hosts]

end HistoryEntry

namespace ClusterState

/-- The times of the state are instants of the calendar. -/
structure Dated (s : ClusterState) : Prop where
  hosts : ∀ e ∈ s.hosts.entries, e.2.Dated
  lastUpdated : s.lastUpdated.Dated
  history : ∀ e ∈ s.history, e.timestamp.Dated

instance (s : ClusterState) : Decidable s.Dated :=
  decidable_of_iff ((∀ e ∈ s.hosts.entries, e.2.Dated) ∧ s.lastUpdated.Dated ∧
      ∀ e ∈ s.history, e.timestamp.Dated)
    ⟨fun d => ⟨d.1, d.2.1, d.2.2⟩, fun d => ⟨d.hosts, d.lastUpdated, d.history⟩⟩

theorem plain_toJson (s : ClusterState) : Json.Plain s.toJson := by
  refine .obj fun f hf => ?_
  simp only [List.mem_cons, List.not_mem_nil, or_false] at hf
  rcases hf with rfl | rfl | rfl | rfl | rfl | rfl | rfl | rfl | rfl
  · exact .str _
  · exact .str _
  · exact .str _
  · exact .str _
  · exact .str _
  · exact .str _
  · refine .obj fun f hf => ?_
    obtain ⟨e, -, rfl⟩ := List.mem_map.1 hf
    exact e.2.plain_toJson
  · exact .str _
  · refine .arr fun v hv => ?_
    obtain ⟨e, -, rfl⟩ := List.mem_map.1 hv
    exact e.plain_toJson

theorem ofJson?_toJson {s : ClusterState} (dated : s.Dated) : ofJson? s.toJson = some s := by
  have hosts := Json.keyMap?_obj fun e he => HostState.ofJson?_toJson (dated.hosts e he)
  have lastUpdated := Instant.ofJson?_toJson dated.lastUpdated
  have history := Json.list?_arr fun e he => HistoryEntry.ofJson?_toJson (dated.history e he)
  simp [ofJson?, toJson, Json.fields?, Json.required, Json.orElse, List.lookup_cons, Json.text?,
    Phase.ofJson?_label, hosts, lastUpdated, history]

theorem parse_document {s : ClusterState} (dated : s.Dated) : parse s.document = .ok s := by
  rw [parse, document, Json.parse_indented s.plain_toJson, Option.bind_eq_bind, Option.bind_some,
    ofJson?_toJson dated]

end ClusterState

/-- A stored state and a stored lock are read back as they were written, whatever texts, hosts and
runs stand in them and at whatever instants of the calendar, to the nanosecond. -/
theorem stored_documents_read_back {s : ClusterState} {l : Lock} (state : s.Dated) (lock : l.Dated) :
    ClusterState.parse s.document = .ok s ∧ Lock.parse l.document = .ok l :=
  ⟨ClusterState.parse_document state, Lock.parse_document_of_dated lock⟩

/-- In the middle of the leap second at the end of 2016. -/
def inLeapSecond : Instant := ⟨1483228799, 1500000000⟩

/-- The last nanosecond of the year 9999. -/
def endOfYears : Instant := ⟨253402300799, 999999999⟩

/-- The first second of the year 0. -/
def startOfYears : Instant := ⟨-62167219200, 0⟩

/-- A state with texts that have to be escaped, a host without any optional field, one with all of
them, and a run that failed. -/
def unusualState : ClusterState where
  version := "1.0"
  clusterId := "c\"1\\"
  clusterName := "a\tline\nand \x01\x1f"
  environment := ""
  configHash := "Ω é 𝄞 \x7f"
  phase := .correlating
  hosts := .ofList [("", ⟨{ zone := "" }, startOfYears, endOfYears⟩),
    ("Δ", ⟨{ zone := "z/", subnetId := some "", assignPublicIp := true,
             replicationSource := some "\"", assignedName := some "h.1" },
      ⟨0, 120000000⟩, ⟨0, 120000001⟩⟩)]
  lastUpdated := inLeapSecond
  history := [.failed inLeapSecond .destroy "" ["", "a", "a"] "\x08\x0c\r", .succeeded ⟨0, 1000⟩ .create "" []]

def unusualLock : Lock := ⟨"", "a\\b", inLeapSecond, inLeapSecond.addSeconds Lock.lifetime⟩

theorem stored_documents_read_back_unusual : unusualState.Dated ∧ unusualLock.Dated ∧
    ClusterState.parse unusualState.document = .ok unusualState ∧
    Lock.parse unusualLock.document = .ok unusualLock := by
  have state : unusualState.Dated := by decide +kernel
  have lock : unusualLock.Dated := ⟨by decide, by decide⟩
  exact ⟨state, lock, stored_documents_read_back state lock⟩

end HostRoster
