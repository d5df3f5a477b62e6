import HostRoster.Proofs.Exchange
import HostRoster.Proofs.Preparation

/-!
# The calls of a run

Whatever the remote side replies, a run makes its calls in a fixed order: it lists the
cluster, then makes the one bulk create of its plan if there is anything to create, and
after that nothing but listings and the updates and deletes of the plan.
-/
namespace HostRoster

section Asking

variable {I : Interface} {α β η : Type}

namespace Program

/-- Under every reply, each request of the program satisfies `ok`. -/
def AsksOnly (ok : I.Request → Prop) : Program I α → Prop
  | .done _ => True
  | .ask r next => ok r ∧ ∀ reply, (next reply).AsksOnly ok

variable {ok : I.Request → Prop}

theorem AsksOnly.bind {p : Program I α} {f : α → Program I β} (hp : p.AsksOnly ok)
    (hf : ∀ value, (f value).AsksOnly ok) : (p >>= f).AsksOnly ok := by
  induction p with
  | done value => exact hf value
  | ask r next ih => exact ⟨hp.1, fun reply => ih reply (hp.2 reply)⟩

theorem AsksOnly.mono {p : Program I α} {weaker : I.Request → Prop} (hp : p.AsksOnly ok)
    (imp : ∀ r, ok r → weaker r) : p.AsksOnly weaker := by
  induction p with
  | done value => trivial
  | ask r next ih => exact ⟨imp r hp.1, fun reply => ih reply (hp.2 reply)⟩

theorem AsksOnly.of_follows {p q : Program I α} {exchanges : List (Exchange I)}
    (hp : p.AsksOnly ok) (run : p.Follows exchanges q) : ∀ e ∈ exchanges, ok e.request := by
  induction run with
  | rest p => simp
  | ask _ ih =>
    intro e he
    rcases List.mem_cons.1 he with rfl | he
    · exact hp.1
    · exact ih (hp.2 _) e he

end Program

/-- What the requests of a run leave true holds at its end. -/
theorem History.invariant {law : η → Exchange I → η → Prop} (keeps : η → Prop)
    {ok : I.Request → Prop} {exchanges : List (Exchange I)} {h h' : η}
    (step : ∀ h e h', ok e.request → law h e h' → keeps h → keeps h')
    (history : History law h exchanges h') (asked : ∀ e ∈ exchanges, ok e.request)
    (start : keeps h) : keeps h' := by
  induction history with
  | rest h => exact start
  | move first _ ih =>
    exact ih (fun e he => asked e (.tail _ he))
      (step _ _ _ (asked _ (.head _)) first start)

end Asking

/-- The calls that carry out a difference once its hosts are created. -/
def HostDiff.Settling (d : HostDiff) (cluster : String) : Call → Prop
  | .list id => id = cluster
  | .create _ _ => False
  | .update id u => id = cluster ∧ u ∈ d.toUpdate
  | .delete id name => id = cluster ∧ name ∈ d.toDelete

/-- A program that makes the calls of a difference: the create first, if it makes any. -/
inductive Conducts (d : HostDiff) (cluster : String) {α : Type} : Program Remote α → Prop
  | settle {p : Program Remote α} (only : p.AsksOnly (d.Settling cluster)) : Conducts d cluster p
  | create {next : Except SyncError (List String) → Program Remote α} (some : d.toCreate ≠ ∅)
      (only : ∀ reply, (next reply).AsksOnly (d.Settling cluster)) :
      Conducts d cluster (.ask (.create cluster d.toCreate.values) next)

section Conduct

variable {α β : Type} {d : HostDiff} {cluster : String}

theorem Conducts.bind {p : Program Remote α} {f : α → Program Remote β} (hp : Conducts d cluster p)
    (hf : ∀ value, (f value).AsksOnly (d.Settling cluster)) : Conducts d cluster (p >>= f) := by
  cases hp with
  | settle only => exact .settle (only.bind hf)
  | create some only => exact .create some fun reply => (only reply).bind hf

/-- With nothing to create there is no create. -/
theorem Conducts.asksOnly {p : Program Remote α} (h : Conducts d cluster p)
    (creates : d.toCreate = ∅) : p.AsksOnly (d.Settling cluster) := by
  cases h with
  | settle only => exact only
  | create some => exact absurd creates some

theorem asksOnly_listHosts :
    (listHosts cluster).run.AsksOnly (d.Settling cluster) := by
  refine ⟨rfl, fun reply => ?_⟩
  cases reply <;> trivial

/-- The part of a session after a failure asks nothing. -/
theorem asksOnly_session_bind {ok : Call → Prop} {x : Session α} {f : α → Session β}
    (hx : x.run.AsksOnly ok) (hf : ∀ value, (f value).run.AsksOnly ok) :
    (x >>= f).run.AsksOnly ok := by
  rw [ExceptT.run_bind]
  refine Program.AsksOnly.bind hx fun result => ?_
  cases result with
  | error e => trivial
  | ok value => exact hf value

theorem asksOnly_correlateSubmitted (creates : Declaration) (names : List String) :
    (correlateSubmitted cluster creates names).run.AsksOnly (d.Settling cluster) := by
  rw [correlateSubmitted]
  refine asksOnly_session_bind asksOnly_listHosts fun listed => ?_
  dsimp only
  split <;> trivial

/-- A bulk create asks for all hosts in one call. -/
theorem conducts_createHosts (some : d.toCreate ≠ ∅) :
    Conducts d cluster (createHosts cluster d.toCreate).run := by
  rw [createHosts, ExceptT.run_bind]
  refine Conducts.bind (.create some fun reply => ?_) fun result => ?_
  · refine Program.AsksOnly.bind (p := .done reply) trivial fun result => ?_
    cases result with
    | error e => trivial
    | ok names =>
      dsimp only
      split <;> trivial
  · cases result with
    | error e => trivial
    | ok names => exact asksOnly_correlateSubmitted d.toCreate names

theorem asksOnly_runUpdates {updates : List HostUpdate} (planned : ∀ u ∈ updates, u ∈ d.toUpdate)
    (e : Execution) : (runUpdates cluster updates e).AsksOnly (d.Settling cluster) := by
  induction updates generalizing e with
  | nil => trivial
  | cons u rest ih =>
    refine ⟨⟨rfl, planned u (.head _)⟩, fun reply => ?_⟩
    cases reply with
    | error err => trivial
    | ok _ => exact ih (fun v hv => planned v (.tail _ hv)) _

theorem asksOnly_runDeletes {names : List String} (planned : ∀ n ∈ names, n ∈ d.toDelete)
    (e : Execution) : (runDeletes cluster names e).AsksOnly (d.Settling cluster) := by
  induction names generalizing e with
  | nil => trivial
  | cons n rest ih =>
    refine ⟨⟨rfl, planned n (.head _)⟩, fun reply => ?_⟩
    cases reply with
    | error err => trivial
    | ok _ => exact ih (fun m hm => planned m (.tail _ hm)) _

theorem asksOnly_andThen {ok : Call → Prop} {e : Execution}
    {next : Execution → Program Remote Execution} (h : (next e).AsksOnly ok) :
    (e.andThen next).AsksOnly ok := by
  rw [Execution.andThen]
  split
  · trivial
  · exact h

/-- The execution of a plan makes the calls of its difference. -/
theorem conducts_execute (current : Nat) (guardrails : Option Guardrails) (hash : String)
    (hosts : HostMap) :
    Conducts d cluster ((HostPlan.ofDiff d current guardrails hash).execute cluster hosts) := by
  rw [HostPlan.execute]
  split
  next => exact .settle trivial
  next =>
    rw [HostPlan.creates_ofDiff, HostPlan.updates_ofDiff, HostPlan.deletes_ofDiff,
      KeyMap.ofList_entries]
    refine Conducts.bind ?_ fun e => asksOnly_andThen
      ((asksOnly_runUpdates (fun u hu => hu) e).bind fun e =>
        asksOnly_andThen (asksOnly_runDeletes (fun n hn => hn) e))
    rw [runCreates]
    split
    next => exact .settle trivial
    next some =>
      refine (conducts_createHosts fun none => some (KeyMap.isEmpty_iff.2 none)).bind fun result => ?_
      cases result <;> trivial

end Conduct

section Reconcile

variable {r : Reconciler} {cluster : String} {desired : Declaration} {prior : HostMap}

theorem asksOnly_refresh (d : HostDiff) (hosts : HostMap) :
    (Reconciler.refresh cluster hosts).run.AsksOnly (d.Settling cluster) := by
  rw [Reconciler.refresh]
  refine asksOnly_session_bind asksOnly_listHosts fun listed => ?_
  dsimp only
  split <;> trivial

theorem conducts_carryThrough {p : Prepared} {listed : List HostRecord}
    (h : r.Prepares desired prior listed p) :
    Conducts p.diff cluster (Reconciler.carryThrough cluster p).run := by
  rw [Reconciler.carryThrough]
  split
  next => exact .settle trivial
  next =>
    rw [ExceptT.run_bind, ExceptT.run_lift, ← bind_pure_comp, h.plan]
    refine Conducts.bind (.bind (conducts_execute ..) fun e => trivial) fun result => ?_
    cases result with
    | error e => trivial
    | ok execution =>
      dsimp only
      split
      · trivial
      · exact asksOnly_session_bind (asksOnly_refresh _ _) fun hosts => trivial

theorem conducts_createAll :
    Conducts { toCreate := desired } cluster (r.createAll cluster desired).run := by
  rw [Reconciler.createAll]
  dsimp only
  split
  next => exact .settle trivial
  next =>
    split
    next => exact .settle trivial
    next some =>
      rw [ExceptT.run_bind]
      refine (conducts_createHosts (d := { toCreate := desired })
        fun none => some (KeyMap.isEmpty_iff.2 none)).bind fun result => ?_
      cases result <;> trivial

/-- Having listed the cluster, a run ends or makes the calls of the difference it finds. -/
theorem conducts_respond (r : Reconciler) (cluster : String) (desired : Declaration)
    (prior : HostMap) (listed : List HostRecord) :
    (∃ result, (r.respond cluster desired prior listed).run = .done result) ∨
      ∃ p, r.prepare desired prior listed = .ok p ∧
        Conducts p.diff cluster (r.respond cluster desired prior listed).run := by
  rw [Reconciler.respond]
  split
  next bare =>
    obtain ⟨noPrior, noHost⟩ := Bool.and_eq_true_iff.1 bare
    obtain rfl := KeyMap.isEmpty_iff.1 noPrior
    obtain rfl := List.isEmpty_iff.1 noHost
    obtain ⟨p, prepared, diff⟩ := r.prepare_bare desired
    exact .inr ⟨p, prepared, diff ▸ conducts_createAll⟩
  next =>
    cases prepared : r.prepare desired prior listed with
    | error e => exact .inl ⟨_, rfl⟩
    | ok p => exact .inr ⟨p, rfl, conducts_carryThrough (Reconciler.prepare_ok prepared)⟩

/-- The one create of a run is that of the difference it finds, and it comes before all else
but the listing. -/
theorem respond_creates {listed : List HostRecord} {exchanges : List (Exchange Remote)}
    {q : Program Remote (Except SyncError Outcome)}
    (run : (r.respond cluster desired prior listed).run.Follows exchanges q)
    {e : Exchange Remote} (he : e ∈ exchanges) {id : String} {specs : List HostSpec}
    (request : e.request = .create id specs) :
    ∃ p reply rest, r.prepare desired prior listed = .ok p ∧ p.diff.toCreate ≠ ∅ ∧
      exchanges = ⟨.create cluster p.diff.toCreate.values, reply⟩ :: rest ∧
      (∀ e ∈ rest, p.diff.Settling cluster e.request) ∧
      id = cluster ∧ specs = p.diff.toCreate.values := by
  rcases conducts_respond r cluster desired prior listed with ⟨result, done⟩ | ⟨p, prepared, conducts⟩
  · rw [done] at run
    simp [(Program.follows_done run).1] at he
  · generalize (r.respond cluster desired prior listed).run = program at run conducts
    cases conducts with
    | settle only =>
      have settling := only.of_follows run e he
      rw [request] at settling
      exact settling.elim
    | create some only =>
      cases run with
      | rest => simp at he
      | ask after =>
        have settling := (only _).of_follows after
        refine ⟨p, _, _, prepared, some, rfl, settling, ?_⟩
        rcases List.mem_cons.1 he with rfl | he
        · cases request
          exact ⟨rfl, rfl⟩
        · have last := settling e he
          rw [request] at last
          exact last.elim

/-- What follows the first listing of a run. -/
theorem reconcile_follows_cons {reply : Except SyncError (List HostRecord)}
    {rest : List (Exchange Remote)} {q : Program Remote (Except SyncError Outcome)}
    (run : (r.reconcile cluster desired prior).run.Follows (⟨.list cluster, reply⟩ :: rest) q) :
    match reply with
    | .error e => rest = [] ∧ q = .done (.error (.remote .list cluster e))
    | .ok listed => (r.respond cluster desired prior listed).run.Follows rest q := by
  rw [Reconciler.reconcile_eq, run_listHosts_bind] at run
  obtain ⟨reply', same, after⟩ := Program.follows_cons run
  cases same
  cases reply with
  | error e => exact Program.follows_done after
  | ok listed => exact after

/-- A run that came to an end has listed the cluster first. -/
theorem reconcile_follows {exchanges : List (Exchange Remote)} {result : Except SyncError Outcome}
    (run : (r.reconcile cluster desired prior).run.Follows exchanges (.done result)) :
    ∃ (reply : Except SyncError (List HostRecord)) (rest : List (Exchange Remote)),
      exchanges = ⟨.list cluster, reply⟩ :: rest ∧
      match reply with
      | .error e => rest = [] ∧ result = .error (.remote .list cluster e)
      | .ok listed => (r.respond cluster desired prior listed).run.Follows rest (.done result) := by
  have asked := run
  rw [Reconciler.reconcile_eq, run_listHosts_bind] at asked
  obtain ⟨reply, rest, rfl, -⟩ := Program.follows_ask asked
  refine ⟨reply, rest, rfl, ?_⟩
  have after := reconcile_follows_cons run
  cases reply with
  | error e => exact ⟨after.1, Program.done.inj after.2⟩
  | ok listed => exact after

end Reconcile

end HostRoster
