import HostRoster.Proofs.Vetoes

/-!
# Guardrails on every path

Guardrails are looked at in three places: when a plan is carried out, before the bulk create on a
cluster without hosts, and before a destruction. A run that is stopped at one of them has changed
nothing. Deletion protection holds for whatever is undertaken, one run after the other.
-/
namespace HostRoster

namespace Program

variable {α : Type} {p q : Program Remote α} {exchanges : List (Exchange Remote)}

/-- The call whose reply a program waits for. -/
def awaited : Program Remote α → List Call
  | .done _ => []
  | .ask call _ => [call]

/-- What is left of a program asks nothing that the program does not. -/
theorem AsksOnly.rest {ok : Call → Prop} (only : p.AsksOnly ok) (run : p.Follows exchanges q) :
    q.AsksOnly ok := by
  induction run with
  | rest p => exact only
  | ask _ ih => exact ih (only.2 _)

theorem AsksOnly.of_awaited {ok : Call → Prop} (only : p.AsksOnly ok) :
    ∀ call ∈ p.awaited, ok call := by
  cases p with
  | done value => simp [awaited]
  | ask call next =>
    intro call' waiting
    obtain rfl := List.mem_singleton.1 waiting
    exact only.1

end Program

/-- A run as far as it has come. -/
structure Attempt where
  reconciler : Reconciler
  cluster : String
  undertaking : Undertaking
  exchanges : List (Exchange Remote)
  /-- What the run has left to do. -/
  now : Program Remote (Except SyncError undertaking.Report)
  follows : (undertaking.session reconciler cluster).run.Follows exchanges now

/-- The plan that is up for a cluster with the listed hosts. -/
def Undertaking.planFor (r : Reconciler) (listed : List HostRecord) : Undertaking → Option HostPlan
  | reconcile desired prior =>
    match r.prepare desired prior listed with
    | .ok p => some p.plan
    | .error _ => none
  | create desired => if listed.isEmpty then some (r.creationPlan desired) else none
  | _ => none

namespace Attempt

/-- The calls of the run, also one that has no reply yet. -/
def calls (a : Attempt) : List Call := a.exchanges.map Exchange.call ++ a.now.awaited

/-- The run got a listing first. -/
def Lists (a : Attempt) (listed : List HostRecord) : Prop :=
  ∃ rest, a.exchanges = ⟨.list a.cluster, Except.ok listed⟩ :: rest

/-- What guardrails do to a run. -/
structure Guarded (a : Attempt) : Prop where
  /-- A run that fails for a guardrail has listed the cluster and made no other call. -/
  stopped : ∀ e, a.now = .done (.error (.plan e)) → a.calls = [.list a.cluster]
  /-- A plan that breaks a guardrail is not begun, and the run fails for it unless it is empty. -/
  rejected : ∀ listed P, a.Lists listed → a.undertaking.planFor a.reconciler listed = some P →
    P.passesGuardrails = false → a.calls = [.list a.cluster] ∧
      (P.isEmpty = false → a.now = .done (.error (.plan (.guardrails P.violations))))
  /-- Under deletion protection no listed host is destroyed. -/
  preserved : ∀ prior listed, a.undertaking = .destroy prior → a.Lists listed →
    a.reconciler.protects = true → listed.filterMap HostRecord.name ≠ [] →
    a.calls = [.list a.cluster] ∧ a.now = .done (.error (.plan (.deletionProtected
      (listed.filterMap HostRecord.name).length)))
  /-- Under deletion protection nothing is deleted. -/
  undeleted : a.reconciler.protects = true → ∀ call ∈ a.calls, call.isDelete = false

theorem calls_of_listing (a : Attempt) {reply : Except SyncError (List HostRecord)}
    {result : Except SyncError a.undertaking.Report}
    (exchanges : a.exchanges = [⟨.list a.cluster, reply⟩]) (ended : a.now = .done result) :
    a.calls = [.list a.cluster] := by
  simp [calls, exchanges, ended, Exchange.call, Program.awaited]

/-- A run that is over as soon as the cluster is listed. -/
theorem calls_of_done (a : Attempt) {f : List HostRecord → Session a.undertaking.Report}
    (session : a.undertaking.session a.reconciler a.cluster = listHosts a.cluster >>= f)
    {listed : List HostRecord} (lists : a.Lists listed)
    {result : Except SyncError a.undertaking.Report} (finished : (f listed).run = .done result) :
    a.calls = [.list a.cluster] ∧ a.now = .done result := by
  obtain ⟨rest, exchanges⟩ := lists
  have run := a.follows
  rw [session, exchanges, follows_listing, finished] at run
  obtain ⟨rfl, ended⟩ := Program.follows_done run
  exact ⟨a.calls_of_listing exchanges ended, ended⟩

theorem stopped (a : Attempt) {e : PlanError} (ended : a.now = .done (.error (.plan e))) :
    a.calls = [.list a.cluster] := by
  have run := a.follows
  rw [ended] at run
  obtain ⟨listed, exchanges⟩ := Undertaking.listing_of_veto run (by simp [SyncError.IsVeto])
  exact a.calls_of_listing exchanges ended

theorem rejected (a : Attempt) {listed : List HostRecord} {P : HostPlan} (lists : a.Lists listed)
    (planned : a.undertaking.planFor a.reconciler listed = some P)
    (broken : P.passesGuardrails = false) : a.calls = [.list a.cluster] ∧
      (P.isEmpty = false → a.now = .done (.error (.plan (.guardrails P.violations)))) := by
  obtain ⟨r, cluster, u, exchanges, now, follows⟩ := a
  cases u with
  | reconcile desired prior =>
    dsimp only [Undertaking.planFor] at planned
    cases prepared : r.prepare desired prior listed with
    | error e => simp [prepared] at planned
    | ok p =>
      obtain rfl : p.plan = P := by simpa [prepared] using planned
      obtain ⟨result, finished, reason⟩ := run_respond_broken cluster prepared broken
      obtain ⟨calls, ended⟩ := calls_of_done ⟨r, cluster, _, exchanges, now, follows⟩
        (r.reconcile_eq cluster desired prior) lists finished
      exact ⟨calls, fun some => reason some ▸ ended⟩
  | create desired =>
    dsimp only [Undertaking.planFor] at planned
    split at planned
    next empty =>
      obtain rfl := Option.some.inj planned
      have finished := run_createAll_broken cluster broken
      obtain ⟨calls, ended⟩ := calls_of_done ⟨r, cluster, _, exchanges, now, follows⟩ rfl lists
        ((congrArg _ (if_pos empty)).trans finished)
      exact ⟨calls, fun _ => ended⟩
    next => simp at planned
  | plan desired prior => simp [Undertaking.planFor] at planned
  | checkDrift desired prior => simp [Undertaking.planFor] at planned
  | destroy prior => simp [Undertaking.planFor] at planned

theorem preserved (a : Attempt) {prior : HostMap} {listed : List HostRecord}
    (destroys : a.undertaking = .destroy prior) (lists : a.Lists listed)
    (protects : a.reconciler.protects = true) (some : listed.filterMap HostRecord.name ≠ []) :
    a.calls = [.list a.cluster] ∧ a.now = .done (.error (.plan (.deletionProtected
      (listed.filterMap HostRecord.name).length))) := by
  obtain ⟨r, cluster, u, exchanges, now, follows⟩ := a
  obtain rfl : u = .destroy prior := destroys
  have forbidden : (r.protects && !(listed.filterMap HostRecord.name).isEmpty) = true := by
    rw [Bool.and_eq_true, Bool.not_eq_true', List.isEmpty_eq_false_iff]
    exact ⟨protects, some⟩
  unfold Reconciler.protects at forbidden
  apply calls_of_done ⟨r, cluster, _, exchanges, now, follows⟩ rfl lists
  dsimp only
  rw [if_pos forbidden]
  rfl

theorem undeleted (a : Attempt) (protects : a.reconciler.protects = true) :
    ∀ call ∈ a.calls, call.isDelete = false := by
  have only := a.undertaking.asksOnly_undeleting a.cluster protects
  intro call issued
  rcases List.mem_append.1 issued with made | waiting
  · obtain ⟨e, he, rfl⟩ := List.mem_map.1 made
    exact only.of_follows a.follows e he
  · exact (only.rest a.follows).of_awaited call waiting

theorem guarded (a : Attempt) : a.Guarded :=
  ⟨fun _ => a.stopped, fun _ _ => a.rejected, fun _ _ => a.preserved, a.undeleted⟩

end Attempt

/-- However many runs there are, and whatever becomes of them, the guardrails hold for each. If all
of them are under deletion protection, no delete is among their calls. -/
theorem guardrails_hold (series : List Attempt) :
    (∀ a ∈ series, a.Guarded) ∧
      ((∀ a ∈ series, a.reconciler.protects = true) →
        ∀ call ∈ series.flatMap Attempt.calls, call.isDelete = false) := by
  induction series with
  | nil => simp
  | cons a rest ih =>
    obtain ⟨others, undeleted⟩ := ih
    constructor
    · exact List.forall_mem_cons.2 ⟨a.guarded, others⟩
    · intro protects
      obtain ⟨first, later⟩ := List.forall_mem_cons.1 protects
      rw [List.flatMap_cons, List.forall_mem_append]
      exact ⟨a.undeleted first, undeleted later⟩

/-- No host may be deleted. -/
def keepAll : Reconciler := { guardrails := some { deletionProtection := true } }

/-- A reconciliation that would replace the stray host. -/
def replacing : Attempt where
  reconciler := keepAll
  cluster := "c"
  undertaking := .reconcile twoZones recordedTwo
  exchanges := [⟨.list "c", Except.ok [firstHost, strayHost]⟩]
  now := .done (.error (.plan (.guardrails [protectedHosts 1])))
  follows := .ask (.rest _)

/-- A destruction after it. -/
def destroying : Attempt where
  reconciler := keepAll
  cluster := "c"
  undertaking := .destroy recordedTwo
  exchanges := [⟨.list "c", Except.ok [firstHost, strayHost]⟩]
  now := .done (.error (.plan (.deletionProtected 2)))
  follows := .ask (.rest _)

/-- The two attempts fail, and the hosts are still there. -/
theorem guardrails_hold_replacing :
    (∀ a ∈ [replacing, destroying], a.reconciler.protects = true) ∧
      (∃ P, replacing.undertaking.planFor keepAll [firstHost, strayHost] = some P ∧
        P.passesGuardrails = false ∧ P.deletes = ["h3"]) ∧
      replacing.calls = [.list "c"] ∧ destroying.calls = [.list "c"] ∧
      ∀ call ∈ [replacing, destroying].flatMap Attempt.calls, call.isDelete = false := by
  have protects : ∀ a ∈ [replacing, destroying], a.reconciler.protects = true := by decide
  have evaluated : ∃ P, replacing.undertaking.planFor keepAll [firstHost, strayHost] = some P ∧
      P.passesGuardrails = false ∧ P.deletes = ["h3"] :=
    ⟨_, rfl, by decide +kernel, by decide +kernel⟩
  obtain ⟨guarded, undeleted⟩ := guardrails_hold [replacing, destroying]
  obtain ⟨P, planned, broken, deletes⟩ := evaluated
  have rejected := (guarded replacing (.head _)).rejected [firstHost, strayHost] P ⟨_, rfl⟩ planned
    broken
  have preserved := (guarded destroying (.tail _ (.head _))).preserved recordedTwo
    [firstHost, strayHost] rfl ⟨_, rfl⟩ rfl (by decide +kernel)
  exact ⟨protects, ⟨P, planned, broken, deletes⟩, rejected.1, preserved.1, undeleted protects⟩

end HostRoster
