import HostRoster.Errand
import HostRoster.Proofs.Exchange

/-!
# Errands as transactions

An errand takes the lock before all else and gives it back after all else, whatever happens
in between. What it saves is one document. After a failure that is the state it has loaded
with the failure noted, and the failure is the errand's; after a success it is the new state,
and the errand succeeds if this is saved.
-/
namespace HostRoster

namespace Program

variable {I : Interface} {α β : Type}

theorem follows_bind {p : Program I α} {f : α → Program I β} {exchanges : List (Exchange I)}
    {result : β} : (p >>= f).Follows exchanges (.done result) ↔
      ∃ before after value, exchanges = before ++ after ∧ p.Follows before (.done value) ∧
        (f value).Follows after (.done result) := by
  induction p generalizing exchanges with
  | done value =>
    constructor
    · exact fun run => ⟨[], exchanges, value, rfl, .rest _, run⟩
    · rintro ⟨before, after, value, rfl, first, second⟩
      obtain ⟨rfl, same⟩ := follows_done first
      obtain rfl := done.inj same
      exact second
  | ask r next ih =>
    constructor
    · intro run
      obtain ⟨reply, rest, rfl, onward⟩ := follows_ask run
      obtain ⟨before, after, value, rfl, first, second⟩ := (ih reply).1 onward
      exact ⟨⟨r, reply⟩ :: before, after, value, rfl, .ask first, second⟩
    · rintro ⟨before, after, value, rfl, first, second⟩
      obtain ⟨reply, rest, rfl, onward⟩ := follows_ask first
      exact .ask ((ih reply).2 ⟨rest, after, value, rfl, onward, second⟩)

end Program

/-- A host map that is recorded is read back as it was. -/
@[simp] theorem ClusterState.hostMap_setHosts (s : ClusterState) (now : Instant) (hosts : HostMap) :
    (s.setHosts now hosts).hostMap = hosts := by
  have kept : ∀ (old : Option HostState) (record : HostRecord),
      (updateHost now old record).record = record := by
    intro old record
    unfold updateHost
    cases old with
    | none => rfl
    | some h =>
      by_cases same : h.record = record
      · rw [← same]
        simp
      · simp [same]
  apply KeyMap.ext
  simp [hostMap, setHosts, kept, KeyMap.map, Function.comp_def]

namespace Errand

/-- The two errands that change a cluster. -/
inductive Change where
  | apply
  | destroy

namespace Change

def errand : Change → Target → String → Program Errands (Except SyncError Outcome)
  | apply => Errand.apply
  | destroy => Errand.destroy

/-- The kind of the run, as it is recorded. -/
def kind : Change → HostMap → RunKind
  | apply => kindOf
  | destroy => fun _ => .destroy

/-- The run from some recorded hosts. -/
def ask : Change → HostMap → Program Errands (Except SyncError Outcome)
  | apply, prior => Errand.ask (.reconcile prior)
  | destroy, prior => Errand.ask (.destroy prior)

/-- The run from some recorded hosts, with what came of it. -/
def run : Change → HostMap → Except SyncError Outcome → Exchange Errands
  | apply, prior, outcome => ⟨.reconcile prior, outcome⟩
  | destroy, prior, outcome => ⟨.destroy prior, outcome⟩

theorem eq_run (c : Change) {prior : HostMap} {exchanges : List (Exchange Errands)}
    {outcome : Except SyncError Outcome} (h : (c.ask prior).Follows exchanges (.done outcome)) :
    exchanges = [c.run prior outcome] := by
  cases c <;>
  · obtain ⟨reply, rest, rfl, ended⟩ := Program.follows_ask h
    obtain ⟨rfl, same⟩ := Program.follows_done ended
    rw [Program.done.inj same]
    rfl

end Change

variable {target : Target} {holder : String} {exchanges : List (Exchange Errands)}
  {result : Except SyncError Outcome}

/-- How an errand comes by the state it starts from. -/
inductive Opens (target : Target) : List (Exchange Errands) → Except StateError ClusterState → Prop
  | failed (e : StateError) : Opens target [⟨.store .load, Except.error e⟩] (.error e)
  | foreign (s : ClusterState) (other : s.clusterId ≠ target.cluster) :
      Opens target [⟨.store .load, Except.ok (some s)⟩]
        (.error (.clusterMismatch target.cluster s.clusterId))
  | stored (s : ClusterState) (own : s.clusterId = target.cluster) :
      Opens target [⟨.store .load, Except.ok (some s)⟩] (.ok s)
  | fresh (now : Instant) : Opens target [⟨.store .load, Except.ok none⟩, ⟨.now, now⟩]
      (.ok (.new now target.cluster target.name target.environment))

theorem opens_of_follows {value : Except SyncError ClusterState}
    (run : (loadState target).Follows exchanges (.done value)) :
    ∃ opened, Opens target exchanges opened ∧ value = opened.mapError .state := by
  obtain ⟨found, rest, rfl, onward⟩ := Program.follows_ask run
  rcases found with e | _ | s
  · obtain ⟨rfl, same⟩ := Program.follows_done onward
    exact ⟨_, .failed e, Program.done.inj same⟩
  · obtain ⟨now, rest, rfl, ended⟩ := Program.follows_ask onward
    obtain ⟨rfl, same⟩ := Program.follows_done ended
    exact ⟨_, .fresh now, Program.done.inj same⟩
  · obtain ⟨rfl, same⟩ := Program.follows_done onward
    have result := Program.done.inj same
    unfold ClusterState.ensureCluster at result
    by_cases own : s.clusterId = target.cluster
    · rw [if_pos own] at result
      exact ⟨_, .stored s own, result⟩
    · rw [if_neg own] at result
      exact ⟨_, .foreign s own, result⟩

/-- The state has one more run in its history, from which the oldest one is dropped if it was
full. -/
def Notes (before after : ClusterState) (entry : HistoryEntry) : Prop :=
  after.history = before.history.drop
    (if before.history.length < ClusterState.historyLimit then 0 else 1) ++ [entry]

theorem notes_addHistory (s : ClusterState) (entry : HistoryEntry) :
    Notes s (s.addHistory entry) entry := by
  unfold Notes ClusterState.addHistory
  by_cases room : s.history.length < ClusterState.historyLimit
  · simp [room]
  · simp [room]

/-- What is saved of a run from a loaded state, and what the errand results in. -/
structure Settles (c : Change) (target : Target) (loaded : ClusterState)
    (outcome : Except SyncError Outcome) (saved : ClusterState) (reply : Except StateError Unit)
    (result : Except SyncError Outcome) : Prop where
  /-- After a failure the loaded state is saved with the failure noted. -/
  failed : ∀ e, outcome = .error e → saved = { loaded with history := saved.history } ∧
    ∃ now, Notes loaded saved
      (.failed now (c.kind loaded.hostMap) target.configHash target.declaredKeys e.message)
  /-- The failure is what the errand results in, saved or not. -/
  fails : ∀ e, outcome = .error e → result = .error e
  /-- After a success the new hosts, the new phase and the hash of the declaration are saved, with
  the success noted. -/
  succeeded : ∀ o, outcome = .ok o → saved.hostMap = o.hosts ∧ ∃ now,
    saved = { loaded with
      hosts := saved.hosts, phase := o.phase, configHash := target.configHash, lastUpdated := now
      history := saved.history } ∧
    Notes loaded saved (.succeeded now (c.kind loaded.hostMap) target.configHash o.hosts.keys)
  /-- The errand succeeds exactly if that is saved. -/
  succeeds : ∀ o, outcome = .ok o →
    (result = .ok o ↔ reply = .ok ()) ∧ ∀ e, reply = .error e → result = .error (.state e)

theorem settles_failed (c : Change) (target : Target) (loaded : ClusterState) (now : Instant)
    (e : SyncError) (reply : Except StateError Unit) :
    Settles c target loaded (.error e) (failed target loaded now (c.kind loaded.hostMap) e) reply
      (.error e) where
  failed := by
    rintro _ ⟨⟩
    exact ⟨rfl, now, notes_addHistory _ _⟩
  fails := fun _ same => same
  succeeded := by rintro _ ⟨⟩
  succeeds := by rintro _ ⟨⟩

theorem settles_succeeded (c : Change) (target : Target) (loaded : ClusterState) (now : Instant)
    (o : Outcome) (reply : Except StateError Unit) :
    Settles c target loaded (.ok o) (succeeded target loaded now (c.kind loaded.hostMap) o) reply
      ((reply.map fun _ => o).mapError .state) where
  failed := by rintro _ ⟨⟩
  fails := by rintro _ ⟨⟩
  succeeded := by
    rintro _ ⟨⟩
    refine ⟨?_, now, rfl, notes_addHistory _ _⟩
    exact ClusterState.hostMap_setHosts loaded now o.hosts
  succeeds := by
    rintro _ ⟨⟩
    cases reply with
    | error refused =>
      constructor
      · exact ⟨fun same => (by cases same), fun same => (by cases same)⟩
      · rintro _ ⟨⟩
        rfl
    | ok _ =>
      constructor
      · exact ⟨fun _ => rfl, fun _ => rfl⟩
      · rintro _ ⟨⟩

theorem settles_of_follows {c : Change} {loaded : ClusterState}
    {outcome : Except SyncError Outcome}
    (run : (record target loaded (c.kind loaded.hostMap) outcome).Follows exchanges
      (.done result)) :
    ∃ now saved reply, exchanges = [⟨.now, now⟩, ⟨.store (.save saved), reply⟩] ∧
      Settles c target loaded outcome saved reply result := by
  obtain ⟨now, rest, rfl, onward⟩ := Program.follows_ask run
  cases outcome with
  | error e =>
    obtain ⟨reply, rest, rfl, ended⟩ := Program.follows_ask onward
    obtain ⟨rfl, same⟩ := Program.follows_done ended
    rw [Program.done.inj same]
    exact ⟨now, _, reply, rfl, settles_failed c target loaded now e reply⟩
  | ok o =>
    obtain ⟨(reply : Except StateError Unit), rest, rfl, ended⟩ := Program.follows_ask onward
    have settled := settles_succeeded c target loaded now o reply
    cases reply <;>
    · obtain ⟨rfl, same⟩ := Program.follows_done ended
      rw [Program.done.inj same]
      exact ⟨now, _, _, rfl, settled⟩

/-- Whether a call asks for a run on the cluster. -/
def isRun : ErrandCall → Bool
  | .reconcile _ => true
  | .destroy _ => true
  | _ => false

/-- Whether a call saves a state. -/
def isSave : ErrandCall → Bool
  | .store (.save _) => true
  | _ => false

/-- Whether a call gives a lock back. -/
def isRelease : ErrandCall → Bool
  | .store (.release _) => true
  | _ => false

/-- The exchanges whose calls are of a kind. -/
def those (kind : ErrandCall → Bool) (exchanges : List (Exchange Errands)) :
    List (Exchange Errands) :=
  exchanges.filter fun e => kind e.request

theorem Opens.quiet {opened : Except StateError ClusterState} (h : Opens target exchanges opened) :
    those isRun exchanges = [] ∧ those isSave exchanges = [] ∧ those isRelease exchanges = [] := by
  cases h <;> exact ⟨rfl, rfl, rfl⟩

/-- What an errand does while it holds the lock, and what it results in. -/
inductive Transacts (c : Change) (target : Target) :
    List (Exchange Errands) → Except SyncError Outcome → Prop
  /-- Without a state to start from there is no run, and nothing is saved. -/
  | unopened {work : List (Exchange Errands)} {e : StateError}
      (opens : Opens target work (.error e)) (runs : those isRun work = [])
      (saves : those isSave work = []) :
      Transacts c target work (.error (.state e))
  /-- There is one run, from the hosts of the state, and one state is saved after it. -/
  | settled {opening rest : List (Exchange Errands)} {loaded saved : ClusterState}
      {outcome : Except SyncError Outcome} {reply : Except StateError Unit}
      {result : Except SyncError Outcome} (opens : Opens target opening (.ok loaded))
      (runs : those isRun (opening ++ rest) = [c.run loaded.hostMap outcome])
      (saves : those isSave (opening ++ rest) = [⟨.store (.save saved), reply⟩])
      (settles : Settles c target loaded outcome saved reply result) :
      Transacts c target (opening ++ rest) result

theorem those_append (kind : ErrandCall → Bool) (before after : List (Exchange Errands)) :
    those kind (before ++ after) = those kind before ++ those kind after :=
  List.filter_append _ _

theorem transacts_of_follows {c : Change}
    (run : (recorded target c.kind c.ask).Follows exchanges (.done result)) :
    Transacts c target exchanges result ∧ those isRelease exchanges = [] := by
  obtain ⟨opening, rest, value, rfl, loads, onward⟩ := Program.follows_bind.1 run
  obtain ⟨opened, opens, rfl⟩ := opens_of_follows loads
  obtain ⟨noRun, noSave, noRelease⟩ := opens.quiet
  cases opened with
  | error e =>
    obtain ⟨rfl, same⟩ := Program.follows_done onward
    rw [Program.done.inj same, List.append_nil]
    exact ⟨.unopened opens noRun noSave, noRelease⟩
  | ok loaded =>
    obtain ⟨running, settling, outcome, rfl, ran, records⟩ := Program.follows_bind.1 onward
    obtain rfl := c.eq_run ran
    obtain ⟨now, saved, reply, rfl, settles⟩ := settles_of_follows records
    refine ⟨.settled opens ?_ ?_ settles, ?_⟩
    · rw [those_append, noRun]
      cases c <;> rfl
    · rw [those_append, noSave]
      cases c <;> rfl
    · rw [those_append, noRelease]
      cases c <;> rfl

/-- The lock is taken before the work and given back after it. -/
theorem follows_withLock {work : Program Errands (Except SyncError Outcome)} :
    (withLock perform holder work).Follows exchanges (.done result) ↔
      (∃ e, exchanges = [⟨.store (.acquire holder), Except.error e⟩] ∧ result = .error (.state e)) ∨
      ∃ (lock : Lock) (done : List (Exchange Errands)) (released : Except StateError Unit),
        exchanges = ⟨.store (.acquire holder), Except.ok lock⟩ ::
          (done ++ [⟨.store (.release lock.id), released⟩]) ∧
        work.Follows done (.done result) := by
  -- the part that is done under the lock
  let locked (lock : Lock) : Program Errands (Except SyncError Outcome) :=
    work >>= fun value => perform (.release lock.id) >>= fun _ => pure value
  constructor
  · intro run
    obtain ⟨(taken : Except StateError Lock), rest, rfl, onward⟩ := Program.follows_ask run
    cases taken with
    | error e =>
      obtain ⟨rfl, same⟩ := Program.follows_done onward
      exact .inl ⟨e, rfl, Program.done.inj same⟩
    | ok lock =>
      have held : (locked lock).Follows rest (.done result) := onward
      obtain ⟨done, leaving, value, rfl, worked, left⟩ := Program.follows_bind.1 held
      obtain ⟨released, none, rfl, ended⟩ := Program.follows_ask left
      obtain ⟨rfl, same⟩ := Program.follows_done ended
      obtain rfl := Program.done.inj same
      exact .inr ⟨lock, done, released, rfl, worked⟩
  · rintro (⟨e, rfl, rfl⟩ | ⟨lock, done, released, rfl, worked⟩)
    · exact .ask (.rest _)
    · have held : (locked lock).Follows (done ++ [⟨.store (.release lock.id), released⟩])
          (.done result) :=
        Program.follows_bind.2 ⟨done, _, result, rfl, worked, .ask (.rest _)⟩
      exact .ask held

/-- What an errand does under the lock. -/
theorem errand_eq (c : Change) (target : Target) (holder : String) :
    c.errand target holder = withLock perform holder (recorded target c.kind c.ask) := by
  cases c <;> rfl

/-- A cluster of one declared host. -/
def soloTarget : Target := ⟨"c", "main", "test", "hash", ["a"]⟩

/-- The record of a cluster whose host is there. -/
def soloState : ClusterState :=
  { ClusterState.new ⟨0, 0⟩ "c" "main" "test" with
    hosts := .ofList [("a", ⟨{ zone := "z", assignedName := some "h1" }, ⟨0, 0⟩, ⟨0, 0⟩⟩)]
    phase := .stable, configHash := "before" }

def soloLock : Lock := ⟨"1", "me", ⟨0, 0⟩, ⟨300, 0⟩⟩

/-- After this the host map of a run cannot be told. -/
def runLost : SyncError := .reconcile (.missingAfterApply ["a"])

def diskFull : StateError := .fileStore "disk full"

/-- A run fails, which cannot be saved, and then the lock cannot be given back. -/
def nothingKept : List (Exchange Errands) :=
  [⟨.store (.acquire "me"), Except.ok soloLock⟩, ⟨.store .load, Except.ok (some soloState)⟩,
    ⟨.reconcile soloState.hostMap, Except.error runLost⟩, ⟨.now, (⟨1, 0⟩ : Instant)⟩,
    ⟨.store (.save (failed soloTarget soloState ⟨1, 0⟩ .reconcile runLost)), Except.error diskFull⟩,
    ⟨.store (.release "1"), Except.error diskFull⟩]

end Errand

end HostRoster
