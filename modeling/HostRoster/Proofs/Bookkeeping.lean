import HostRoster.Proofs.StoredDocuments
import HostRoster.Proofs.Transactions
import Mathlib.Data.List.DropRight

/-!
# Faithful books

The record of a cluster is changed a call at a time, and between two calls it may have been written
down and read back. What it says at the end can be told from the calls alone: which hosts there
are, since when a key has been there without a break, since when its record has been the same, and
which runs were the latest.
-/
namespace HostRoster

/-- Something done to the record of a cluster. -/
inductive StateCall where
  | setHosts (hosts : HostMap)
  | setPhase (phase : Phase)
  | addHistory (entry : HistoryEntry)
  /-- The record is written down and read back. -/
  | reload

namespace ClusterState

/-- Carries out a call at a time. -/
def carryOut (s : ClusterState) (now : Instant) : StateCall → Except StateError ClusterState
  | .setHosts hosts => .ok (s.setHosts now hosts)
  | .setPhase phase => .ok (s.setPhase now phase)
  | .addHistory entry => .ok (s.addHistory entry)
  | .reload => parse s.document

/-- Carries out calls one after the other, each at its time. -/
def run (s : ClusterState) (calls : List (Instant × StateCall)) : Except StateError ClusterState :=
  calls.foldlM (fun s call => s.carryOut call.1 call.2) s

end ClusterState

namespace StateCall

/-- The maps that were recorded, with the times. -/
def mapsSet (calls : List (Instant × StateCall)) : List (Instant × HostMap) :=
  calls.filterMap fun
    | (now, setHosts hosts) => some (now, hosts)
    | _ => none

/-- The runs that were added to the history. -/
def entriesAdded (calls : List (Instant × StateCall)) : List HistoryEntry :=
  calls.filterMap fun
    | (_, addHistory entry) => some entry
    | _ => none

/-- The hosts of the last map that was recorded; none before the first. -/
def lastMap (calls : List (Instant × StateCall)) : HostMap :=
  (mapsSet calls).getLast?.elim ∅ Prod.snd

end StateCall

/-- Since a time something has held of recorded maps without a break: it holds of the map that was
recorded then and of all later ones, but not of the one right before. -/
def HeldSince (sets : List (Instant × HostMap)) (holds : HostMap → Prop) (since : Instant) : Prop :=
  ∃ before first after, sets = before ++ (since, first) :: after ∧ holds first ∧
    (∀ later ∈ after, holds later.2) ∧ ∀ last ∈ before.getLast?, ¬ holds last.2

section Held

variable {sets : List (Instant × HostMap)} {holds : HostMap → Prop} {since now : Instant} {m : HostMap}

theorem HeldSince.continued (h : HeldSince sets holds since) (still : holds m) :
    HeldSince (sets ++ [(now, m)]) holds since := by
  obtain ⟨before, first, after, rfl, held, later, broken⟩ := h
  refine ⟨before, first, after ++ [(now, m)], by simp, held, fun set mem => ?_, broken⟩
  rcases List.mem_append.1 mem with mem | mem
  · exact later set mem
  · obtain rfl := List.mem_singleton.1 mem
    exact still

theorem heldSince_begun (broken : ∀ last ∈ sets.getLast?, ¬ holds last.2) (begun : holds m) :
    HeldSince (sets ++ [(now, m)]) holds now :=
  ⟨sets, m, [], rfl, begun, by simp, broken⟩

end Held

/-- One instant is not after another. -/
def Instant.UpTo (a b : Instant) : Prop := b.isBefore a = false

instance (a b : Instant) : Decidable (a.UpTo b) := inferInstanceAs (Decidable (_ = _))

theorem Instant.UpTo.trans {a b c : Instant} (first : a.UpTo b) (second : b.UpTo c) : a.UpTo c := by
  unfold UpTo at *
  rw [not_isBefore_iff] at *
  omega

theorem Instant.upTo_self (a : Instant) : a.UpTo a := not_isBefore_self

/-- The record says what the calls say by themselves. -/
structure ClusterState.Tells (s : ClusterState) (calls : List (Instant × StateCall)) : Prop where
  hosts : s.hostMap = StateCall.lastMap calls
  /-- A host is said to be created when its key began to be there without a break. -/
  created : ∀ key h, s.hosts.get? key = some h →
    HeldSince (StateCall.mapsSet calls) (fun m => key ∈ m.keys) h.createdAt
  /-- A host is said to be updated when its key began to have this record without a break. -/
  updated : ∀ key h, s.hosts.get? key = some h →
    HeldSince (StateCall.mapsSet calls) (fun m => m.get? key = some h.record) h.updatedAt
  history : s.history = (StateCall.entriesAdded calls).rtake 100

/-- The times of all hosts are in order, and none is after the present. -/
def ClusterState.InOrder (s : ClusterState) (now : Instant) : Prop :=
  ∀ key h, s.hosts.get? key = some h → h.createdAt.UpTo h.updatedAt ∧ h.updatedAt.UpTo now

namespace ClusterState

variable {s s' : ClusterState} {calls : List (Instant × StateCall)} {now : Instant} {key : String}

theorem get?_hostMap (s : ClusterState) (key : String) :
    s.hostMap.get? key = (s.hosts.get? key).map HostState.record :=
  KeyMap.get?_map ..

theorem get?_setHosts (s : ClusterState) (now : Instant) (hosts : HostMap) (key : String) :
    (s.setHosts now hosts).hosts.get? key =
      (hosts.get? key).map (updateHost now (s.hosts.get? key)) :=
  KeyMap.get?_map ..

/-- How a host comes by its times: its key was not there, or it has the record it had, or another. -/
inductive Comes (now : Instant) (old : Option HostState) (h : HostState) : Prop
  | begun (absent : old = none) (created : h.createdAt = now) (updated : h.updatedAt = now)
  | same (present : old = some h)
  | changed {before : HostState} (present : old = some before) (other : before.record ≠ h.record)
      (created : h.createdAt = before.createdAt) (updated : h.updatedAt = now)

theorem comes_updateHost (now : Instant) (old : Option HostState) (record : HostRecord) :
    (updateHost now old record).record = record ∧ Comes now old (updateHost now old record) := by
  cases old with
  | none => exact ⟨rfl, .begun rfl rfl rfl⟩
  | some h =>
    by_cases same : h.record = record
    · have kept : updateHost now (some h) record = h := by simp [updateHost, same]
      rw [kept]
      exact ⟨same, .same rfl⟩
    · have replaced : updateHost now (some h) record = { h with record, updatedAt := now } := by
        simp [updateHost, same]
      rw [replaced]
      exact ⟨rfl, .changed rfl same rfl rfl⟩

theorem comes_of_get? {hosts : HostMap} {h : HostState}
    (found : (s.setHosts now hosts).hosts.get? key = some h) :
    hosts.get? key = some h.record ∧ Comes now (s.hosts.get? key) h := by
  rw [get?_setHosts] at found
  obtain ⟨record, given, rfl⟩ := Option.map_eq_some_iff.1 found
  obtain ⟨same, comes⟩ := comes_updateHost now (s.hosts.get? key) record
  rw [same]
  exact ⟨given, comes⟩

section Telling

theorem Tells.last_eq (h : s.Tells calls) {last : Instant × HostMap}
    (mem : last ∈ (StateCall.mapsSet calls).getLast?) : last.2 = s.hostMap := by
  rw [h.hosts, StateCall.lastMap, mem]
  rfl

/-- Where no map is recorded, the hosts stay as they are. -/
theorem Tells.of_hosts (h : s.Tells calls) {later : List (Instant × StateCall)}
    (same : s'.hosts = s.hosts) (maps : StateCall.mapsSet later = StateCall.mapsSet calls)
    (history : s'.history = (StateCall.entriesAdded later).rtake 100) : s'.Tells later where
  hosts := by rw [hostMap, same, StateCall.lastMap, maps, ← StateCall.lastMap, ← h.hosts, hostMap]
  created := by
    rw [same, maps]
    exact h.created
  updated := by
    rw [same, maps]
    exact h.updated
  history := history

/-- A key that was there before goes on being there, and so does a record that was there. -/
theorem Tells.setHosts (h : s.Tells calls) (now : Instant) (hosts : HostMap) :
    (s.setHosts now hosts).Tells (calls ++ [(now, .setHosts hosts)]) := by
  have maps : StateCall.mapsSet (calls ++ [(now, .setHosts hosts)]) =
      StateCall.mapsSet calls ++ [(now, hosts)] := by simp [StateCall.mapsSet]
  refine ⟨?_, fun key host found => ?_, fun key host found => ?_, ?_⟩
  · simp [StateCall.lastMap, maps]
  · obtain ⟨given, comes⟩ := comes_of_get? found
    have there : key ∈ hosts.keys := KeyMap.mem_keys.2 ⟨_, KeyMap.get?_eq_some.1 given⟩
    rw [maps]
    cases comes with
    | begun absent created =>
      rw [created]
      refine heldSince_begun (fun last mem => ?_) there
      rw [h.last_eq mem, ← KeyMap.get?_eq_none, get?_hostMap, absent]
      rfl
    | same present => exact (h.created key _ present).continued there
    | changed present other created =>
      rw [created]
      exact (h.created key _ present).continued there
  · obtain ⟨given, comes⟩ := comes_of_get? found
    rw [maps]
    cases comes with
    | begun absent created updated =>
      rw [updated]
      refine heldSince_begun (fun last mem => ?_) given
      simp [h.last_eq mem, get?_hostMap, absent]
    | same present => exact (h.updated key _ present).continued given
    | changed present other created updated =>
      rw [updated]
      refine heldSince_begun (fun last mem => ?_) given
      simpa [h.last_eq mem, get?_hostMap, present] using other
  · simpa [StateCall.entriesAdded, ClusterState.setHosts] using h.history

theorem Tells.setPhase (h : s.Tells calls) (now : Instant) (phase : Phase) :
    (s.setPhase now phase).Tells (calls ++ [(now, .setPhase phase)]) := by
  refine h.of_hosts rfl (by simp [StateCall.mapsSet]) ?_
  simpa [StateCall.entriesAdded, ClusterState.setPhase] using h.history

theorem Tells.reload (h : s.Tells calls) (now : Instant) : s.Tells (calls ++ [(now, .reload)]) := by
  refine h.of_hosts rfl (by simp [StateCall.mapsSet]) ?_
  simpa [StateCall.entriesAdded] using h.history

/-- The last hundred of some entries, less one if they are a hundred, with the next one behind them. -/
theorem history_addHistory {entries : List HistoryEntry} (h : s.history = entries.rtake 100)
    (entry : HistoryEntry) : (s.addHistory entry).history = (entries ++ [entry]).rtake 100 := by
  have kept : (if s.history.length < historyLimit then s.history else s.history.tail) =
      entries.rtake 99 := by
    rw [h]
    simp only [List.rtake, historyLimit, List.length_drop, List.tail_drop]
    split
    · congr 1
      omega
    · congr 1
      omega
  rw [List.rtake_concat_succ, ← kept]
  rfl

theorem Tells.addHistory (h : s.Tells calls) (now : Instant) (entry : HistoryEntry) :
    (s.addHistory entry).Tells (calls ++ [(now, .addHistory entry)]) := by
  refine h.of_hosts rfl (by simp [StateCall.mapsSet]) ?_
  rw [history_addHistory h.history]
  simp [StateCall.entriesAdded]

end Telling

theorem InOrder.later {clock : Instant} (h : s.InOrder clock) (steady : clock.UpTo now) :
    s.InOrder now :=
  fun key host found => ⟨(h key host found).1, (h key host found).2.trans steady⟩

theorem InOrder.setHosts (h : s.InOrder now) (hosts : HostMap) : (s.setHosts now hosts).InOrder now := by
  intro key host found
  obtain ⟨-, comes⟩ := comes_of_get? found
  cases comes with
  | begun absent created updated =>
    rw [created, updated]
    exact ⟨now.upTo_self, now.upTo_self⟩
  | same present => exact h key host present
  | changed present other created updated =>
    obtain ⟨first, second⟩ := h key _ present
    rw [created, updated]
    exact ⟨first.trans second, now.upTo_self⟩

theorem Dated.setHosts (h : s.Dated) (dated : now.Dated) (hosts : HostMap) :
    (s.setHosts now hosts).Dated := by
  refine ⟨fun e mem => ?_, dated, h.history⟩
  obtain ⟨-, comes⟩ := comes_of_get? (KeyMap.get?_eq_some.2 mem)
  cases comes with
  | begun absent created updated => exact ⟨created ▸ dated, updated ▸ dated⟩
  | same present => exact h.hosts (e.1, e.2) (KeyMap.get?_eq_some.1 present)
  | changed present other created updated =>
    have before := h.hosts (e.1, _) (KeyMap.get?_eq_some.1 present)
    exact ⟨created ▸ before.created, updated ▸ dated⟩

theorem Dated.addHistory (h : s.Dated) {entry : HistoryEntry} (dated : entry.timestamp.Dated) :
    (s.addHistory entry).Dated := by
  refine ⟨h.hosts, h.lastUpdated, fun e mem => ?_⟩
  rcases List.mem_append.1 mem with kept | added
  · split at kept
    · exact h.history e kept
    · exact h.history e (List.mem_of_mem_tail kept)
  · obtain rfl := List.mem_singleton.1 added
    exact dated

/-- The books after some calls, the last of them at the time of a clock. -/
structure Books (s : ClusterState) (calls : List (Instant × StateCall)) (clock : Instant) : Prop where
  tells : s.Tells calls
  inOrder : s.InOrder clock
  dated : s.Dated

theorem books_new {now : Instant} (dated : now.Dated) (clusterId clusterName environment : String) :
    (new now clusterId clusterName environment).Books [] now := by
  have none_ : ∀ e, e ∉ (new now clusterId clusterName environment).hosts.entries :=
    fun _ => List.not_mem_nil
  have unseen : ∀ key h, (new now clusterId clusterName environment).hosts.get? key ≠ some h :=
    fun key h found => none_ _ (KeyMap.get?_eq_some.1 found)
  exact
    { tells := ⟨rfl, fun key h found => absurd found (unseen key h),
        fun key h found => absurd found (unseen key h), rfl⟩
      inOrder := fun key h found => absurd found (unseen key h)
      dated := ⟨fun e mem => absurd mem (none_ e), dated, fun e mem => absurd mem List.not_mem_nil⟩ }

/-- A call never fails and keeps the books. -/
theorem Books.carryOut {clock : Instant} (h : s.Books calls clock) (steady : clock.UpTo now)
    (dated : now.Dated) {call : StateCall}
    (entry : ∀ e ∈ StateCall.entriesAdded [(now, call)], e.timestamp.Dated) :
    ∃ s', s.carryOut now call = .ok s' ∧ s'.Books (calls ++ [(now, call)]) now := by
  have inOrder := h.inOrder.later steady
  cases call with
  | setHosts hosts =>
    exact ⟨_, rfl, h.tells.setHosts now hosts, inOrder.setHosts hosts, h.dated.setHosts dated hosts⟩
  | setPhase phase =>
    exact ⟨_, rfl, h.tells.setPhase now phase, inOrder, h.dated.hosts, dated, h.dated.history⟩
  | addHistory e =>
    have added : e.timestamp.Dated := entry e (by simp [StateCall.entriesAdded])
    exact ⟨_, rfl, h.tells.addHistory now e, inOrder, h.dated.addHistory added⟩
  | reload =>
    have reads : s.carryOut now .reload = .ok s := by
      rw [ClusterState.carryOut, parse_document h.dated]
    exact ⟨s, reads, h.tells.reload now, inOrder, h.dated⟩

/-- By induction on the calls. -/
theorem Books.run {past : List (Instant × StateCall)} {clock : Instant} (h : s.Books past clock)
    (steady : (clock :: (calls.map Prod.fst ++ [now])).IsChain Instant.UpTo)
    (dated : ∀ call ∈ calls, call.1.Dated)
    (entries : ∀ e ∈ StateCall.entriesAdded calls, e.timestamp.Dated) :
    ∃ s', s.run calls = .ok s' ∧ s'.Tells (past ++ calls) ∧ s'.InOrder now := by
  induction calls generalizing s past clock with
  | nil =>
    obtain ⟨last, -⟩ := List.isChain_cons_cons.1 steady
    exact ⟨s, rfl, by simpa using h.tells, h.inOrder.later last⟩
  | cons call rest ih =>
    obtain ⟨first, onward⟩ := List.isChain_cons_cons.1 steady
    obtain ⟨dated, datedRest⟩ := List.forall_mem_cons.1 dated
    have split : StateCall.entriesAdded (call :: rest) =
        StateCall.entriesAdded [call] ++ StateCall.entriesAdded rest :=
      List.filterMap_append (l := [call])
    rw [split, List.forall_mem_append] at entries
    obtain ⟨next, carries, kept⟩ := h.carryOut first dated entries.1
    obtain ⟨last, runs, tells, inOrder⟩ := ih kept onward datedRest entries.2
    refine ⟨last, ?_, by simpa using tells, inOrder⟩
    rw [ClusterState.run, List.foldlM_cons, carries]
    exact runs

end ClusterState

/-- Whatever is done to a new record, one call after the other on a steady clock, nothing fails, the
record tells of it what the calls themselves tell, and the times of its hosts are in order. -/
theorem books_faithful {started now : Instant} (clusterId clusterName environment : String)
    {calls : List (Instant × StateCall)}
    (steady : (started :: (calls.map Prod.fst ++ [now])).IsChain Instant.UpTo)
    (dated : started.Dated ∧ ∀ call ∈ calls, call.1.Dated)
    (entries : ∀ e ∈ StateCall.entriesAdded calls, e.timestamp.Dated) :
    ∃ s, (ClusterState.new started clusterId clusterName environment).run calls = .ok s ∧
      s.Tells calls ∧ s.InOrder now :=
  (ClusterState.books_new dated.1 clusterId clusterName environment).run steady dated.2 entries

/-- Two hosts are recorded, one of them goes away and comes back, the other is given another name. -/
def comingAndGoing : List (Instant × StateCall) :=
  let here : HostRecord := { zone := "z", assignedName := some "h.1" }
  let other : HostRecord := { zone := "z", assignedName := some "h.2" }
  let renamed : HostRecord := { zone := "z", assignedName := some "h.3" }
  [(⟨1, 0⟩, .setHosts (.ofList [("a", here), ("b", other)])),
    (⟨1, 0⟩, .addHistory (.succeeded ⟨1, 0⟩ .create "" ["a", "b"])), (⟨2, 500⟩, .reload),
    (⟨2, 500⟩, .setHosts (.ofList [("b", renamed)])), (⟨3, 0⟩, .setPhase .stable),
    (⟨4, 0⟩, .setHosts (.ofList [("a", here), ("b", renamed)])), (⟨4, 0⟩, .reload)]

theorem books_faithful_comingAndGoing :
    ((⟨0, 0⟩ : Instant) :: (comingAndGoing.map Prod.fst ++ [⟨4, 1⟩])).IsChain Instant.UpTo ∧
    ∃ s, (ClusterState.new ⟨0, 0⟩ "c1" "orders" "dev").run comingAndGoing = .ok s ∧
      s.Tells comingAndGoing ∧ s.InOrder ⟨4, 1⟩ := by
  have steady : ((⟨0, 0⟩ : Instant) :: (comingAndGoing.map Prod.fst ++ [⟨4, 1⟩])).IsChain
      Instant.UpTo := by decide
  have dated : (⟨0, 0⟩ : Instant).Dated ∧ ∀ call ∈ comingAndGoing, call.1.Dated :=
    ⟨by decide, fun call mem => by
      have times : ∀ time ∈ comingAndGoing.map Prod.fst, time.Dated := by decide
      exact times _ (List.mem_map_of_mem mem)⟩
  exact ⟨steady, books_faithful "c1" "orders" "dev" steady dated (by decide)⟩

end HostRoster
