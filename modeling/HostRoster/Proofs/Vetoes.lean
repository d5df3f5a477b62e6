import HostRoster.Proofs.Capacity

/-!
# What keeps a run from going on

Whatever a reconciler undertakes, it lists the cluster first and then decides whether to go on. It
does not go on with a plan that breaks a guardrail, with a host that would have to move, or on a
cluster that is not as it should be. What goes wrong later is told by other errors. So a run that
ends with such a veto has done nothing but list the cluster.
-/
namespace HostRoster

/-- An error by which a run declines to go on with what it has listed. -/
def SyncError.IsVeto : SyncError → Prop
  | plan _ => True
  | reconcile (.placementChanged ..) => True
  | reconcile (.aborted _) => True
  | _ => False

/-- Whether hosts may not be deleted. -/
def Reconciler.protects (r : Reconciler) : Bool := r.guardrails.any (·.deletionProtection)

/-- The plan for a cluster without hosts, which is to create every declared one. -/
def Reconciler.creationPlan (r : Reconciler) (desired : Declaration) : HostPlan :=
  .ofDiff { toCreate := desired } 0 r.guardrails r.configHash

section Late

variable {α β η : Type} {law : η → Exchange Remote → η → Prop} {cluster : String} {h : η}

/-- A result that is no veto. -/
def Unvetoed (result : Except SyncError α) : Prop := ∀ e, result = .error e → ¬ e.IsVeto

/-- An execution that has not been ended by a veto. -/
def Execution.Unvetoed (e : Execution) : Prop := ∀ err, e.failure = some err → ¬ err.IsVeto

theorem unvetoed_ok (value : α) : Unvetoed (Except.ok value) := by
  intro e failed
  simp at failed

theorem unvetoed_error {e : SyncError} (other : ¬ e.IsVeto) :
    Unvetoed (Except.error e : Except SyncError α) := by
  intro e' failed
  obtain rfl := Except.error.inj failed
  exact other

theorem Execution.unvetoed_of_none {e : Execution} (going : e.failure = none) : e.Unvetoed := by
  intro err failed
  simp [going] at failed

theorem Execution.unvetoed_failed (e : Execution) {err : SyncError} (other : ¬ err.IsVeto) :
    ({ e with failure := some err } : Execution).Unvetoed := by
  intro err' failed
  obtain rfl := Option.some.inj failed
  exact other

/-- A session whose parts end with no veto ends with none. -/
theorem ensures_bind_unvetoed {x : Session α} {f : α → Session β}
    (hx : x.run.Ensures law h fun result _ => Unvetoed result)
    (hf : ∀ value h', (f value).run.Ensures law h' fun result _ => Unvetoed result) :
    (x >>= f).run.Ensures law h fun result _ => Unvetoed result := by
  rw [ensures_session_bind]
  apply hx.mono
  intro result h' unvetoed
  cases result with
  | ok value => exact hf value h'
  | error e => exact unvetoed_error (unvetoed e rfl)

theorem ensures_listHosts_unvetoed :
    (listHosts cluster).run.Ensures law h fun result _ => Unvetoed result := by
  rw [ensures_listHosts]
  intro reply h' _
  cases reply with
  | ok listed => exact unvetoed_ok listed
  | error e => exact unvetoed_error (by simp [SyncError.IsVeto])

theorem assignKeys_unvetoed {actual : List HostRecord} {b : Buckets} {mapped : HostMap}
    {e : ReconcileError} (failed : assignKeys b mapped actual = .error e) :
    ¬ (SyncError.reconcile e).IsVeto := by
  induction actual generalizing b mapped with
  | nil => simp [assignKeys] at failed
  | cons r rest ih =>
    unfold assignKeys at failed
    split at failed
    next =>
      cases failed
      simp [SyncError.IsVeto]
    next =>
      split at failed
      next =>
        cases failed
        simp [SyncError.IsVeto]
      next => exact ih failed

/-- Created hosts that cannot be tied to their keys are a failure but no veto. -/
theorem correlateCreated_unvetoed {b : Buckets} {actual : List HostRecord} {e : ReconcileError}
    (failed : correlateCreated b actual = .error e) : ¬ (SyncError.reconcile e).IsVeto := by
  unfold correlateCreated at failed
  split at failed
  · exact assignKeys_unvetoed failed
  · cases failed
    simp [SyncError.IsVeto]

theorem ensures_createHosts_unvetoed (creates : Declaration) :
    (createHosts cluster creates).run.Ensures law h fun result _ => Unvetoed result := by
  unfold createHosts
  apply ensures_bind_unvetoed
  · rw [ensures_submitCreates]
    intro reply h' _
    unfold submitted
    cases reply with
    | error e => exact unvetoed_error (by simp [SyncError.IsVeto])
    | ok names =>
      dsimp only
      split
      · exact unvetoed_ok names
      · exact unvetoed_error (by simp [SyncError.IsVeto])
  · intro names h'
    rw [ensures_correlateSubmitted]
    intro reply h'' _
    cases reply with
    | error e => exact unvetoed_error (by simp [SyncError.IsVeto])
    | ok listed =>
      cases tied : correlateCreated (.ofDeclaration creates) (hostsNamed names listed) with
      | error e =>
        simp only [tied, Except.mapError]
        exact unvetoed_error (correlateCreated_unvetoed tied)
      | ok mapped =>
        simp only [tied, Except.mapError]
        exact unvetoed_ok mapped

theorem ensures_runCreates_unvetoed (creates : Declaration) {e : Execution} (start : e.Unvetoed) :
    (runCreates cluster creates e).Ensures law h fun e' _ => e'.Unvetoed := by
  unfold runCreates
  split
  · exact start
  · rw [Program.ensures_bind]
    apply (ensures_createHosts_unvetoed creates).mono
    intro result h' unvetoed
    cases result with
    | ok mapped => exact start
    | error err => exact e.unvetoed_failed (unvetoed err rfl)

theorem ensures_runUpdates_unvetoed (updates : List HostUpdate) {e : Execution}
    (start : e.Unvetoed) :
    (runUpdates cluster updates e).Ensures law h fun e' _ => e'.Unvetoed := by
  induction updates generalizing e h with
  | nil => exact start
  | cons u rest ih =>
    intro reply h' _
    cases reply with
    | ok _ => exact ih (e := e.recordUpdated u) start
    | error err => exact e.unvetoed_failed (by simp [SyncError.IsVeto])

theorem ensures_runDeletes_unvetoed (names : List String) {e : Execution} (start : e.Unvetoed) :
    (runDeletes cluster names e).Ensures law h fun e' _ => e'.Unvetoed := by
  induction names generalizing e h with
  | nil => exact start
  | cons n rest ih =>
    intro reply h' _
    cases reply with
    | ok _ => exact ih (e := e.recordDeleted n) start
    | error err => exact e.unvetoed_failed (by simp [SyncError.IsVeto])

theorem ensures_andThen_unvetoed {e : Execution} {next : Execution → Program Remote Execution}
    (start : e.Unvetoed) (goes : (next e).Ensures law h fun e' _ => e'.Unvetoed) :
    (e.andThen next).Ensures law h fun e' _ => e'.Unvetoed := by
  unfold Execution.andThen
  split
  · exact start
  · exact goes

/-- The execution of a plan that passes the guardrails ends with no veto. -/
theorem ensures_execute_unvetoed {p : HostPlan} (passes : p.passesGuardrails = true)
    (hosts : HostMap) : (p.execute cluster hosts).Ensures law h fun e _ => e.Unvetoed := by
  unfold HostPlan.execute
  rw [HostPlan.ensureGuardrails_passed passes]
  dsimp only
  rw [Program.ensures_bind]
  apply (ensures_runCreates_unvetoed _ (Execution.unvetoed_of_none rfl)).mono
  intro e h' created
  apply ensures_andThen_unvetoed created
  rw [Program.ensures_bind]
  apply (ensures_runUpdates_unvetoed p.updates created).mono
  intro e' h'' updated
  exact ensures_andThen_unvetoed updated (ensures_runDeletes_unvetoed p.deletes updated)

theorem ensures_refresh_unvetoed (hosts : HostMap) :
    (Reconciler.refresh cluster hosts).run.Ensures law h fun result _ => Unvetoed result := by
  unfold Reconciler.refresh
  apply ensures_bind_unvetoed ensures_listHosts_unvetoed
  intro listed h'
  dsimp only
  split
  · exact unvetoed_ok _
  · exact unvetoed_error (by simp [SyncError.IsVeto])

/-- A session that carries out a plan first ends with no veto if what follows does not. -/
theorem ensures_executing_unvetoed {p : HostPlan} (passes : p.passesGuardrails = true)
    (hosts : HostMap) {f : Execution → Session α}
    (hf : ∀ e h', (f e).run.Ensures law h' fun result _ => Unvetoed result) :
    ((ExceptT.lift (p.execute cluster hosts) : Session Execution) >>= fun e =>
      match e.failure with
      | some err => throw err
      | none => f e).run.Ensures law h fun result _ => Unvetoed result := by
  rw [ensures_session_bind, ensures_lift]
  apply (ensures_execute_unvetoed passes hosts).mono
  intro e h' unvetoed
  dsimp only
  split
  next err failed => exact unvetoed_error (unvetoed err failed)
  next => exact hf e h'

variable {r : Reconciler} {desired : Declaration} {p : Prepared}

theorem ensures_carryThrough_unvetoed (passes : p.plan.passesGuardrails = true) :
    (Reconciler.carryThrough cluster p).run.Ensures law h fun result _ => Unvetoed result := by
  unfold Reconciler.carryThrough
  split
  · exact unvetoed_ok _
  · apply ensures_executing_unvetoed passes
    intro e h'
    exact ensures_bind_unvetoed (ensures_refresh_unvetoed e.hosts) fun hosts h'' => unvetoed_ok _

theorem ensures_createAll_unvetoed (passes : (r.creationPlan desired).passesGuardrails = true) :
    (r.createAll cluster desired).run.Ensures law h fun result _ => Unvetoed result := by
  have goes : (HostPlan.ofDiff { toCreate := desired } 0 r.guardrails r.configHash).ensureGuardrails
      = .ok () := HostPlan.ensureGuardrails_passed passes
  unfold Reconciler.createAll
  dsimp only
  rw [goes]
  dsimp only
  split
  · exact unvetoed_ok _
  · exact ensures_bind_unvetoed (ensures_createHosts_unvetoed desired) fun m h' => unvetoed_ok _

end Late

section Courses

variable {α : Type} {r : Reconciler} {cluster : String} {desired : Declaration} {prior : HostMap}
  {listed : List HostRecord} {p : Prepared}

theorem run_createAll_broken (cluster : String)
    (broken : (r.creationPlan desired).passesGuardrails = false) :
    (r.createAll cluster desired).run =
      .done (.error (.plan (.guardrails (r.creationPlan desired).violations))) := by
  have refused : (HostPlan.ofDiff { toCreate := desired } 0 r.guardrails
      r.configHash).ensureGuardrails = .error (.guardrails (r.creationPlan desired).violations) :=
    HostPlan.ensureGuardrails_refused broken
  unfold Reconciler.createAll
  dsimp only
  rw [refused]
  rfl

/-- A run whose plan breaks a guardrail is over. An empty plan it takes for carried out, unless
the cluster is without hosts and records. -/
theorem run_respond_broken (cluster : String) (prepared : r.prepare desired prior listed = .ok p)
    (broken : p.plan.passesGuardrails = false) :
    ∃ result, (r.respond cluster desired prior listed).run = .done result ∧
      (p.plan.isEmpty = false → result = .error (.plan (.guardrails p.plan.violations))) := by
  rcases Reconciler.respond_cases cluster prepared with ⟨respond, plan⟩ | respond
  · rw [plan] at broken ⊢
    rw [respond]
    exact ⟨_, run_createAll_broken cluster broken, fun _ => rfl⟩
  · rw [respond, Reconciler.carryThrough]
    by_cases empty : p.plan.isEmpty = true
    · rw [if_pos empty]
      exact ⟨_, rfl, by simp [empty]⟩
    · rw [if_neg empty, run_lift_bind, HostPlan.execute, HostPlan.ensureGuardrails_refused broken]
      exact ⟨_, rfl, fun _ => rfl⟩

theorem ensures_respond_unvetoed {η : Type} {law : η → Exchange Remote → η → Prop} {h : η}
    (prepared : r.prepare desired prior listed = .ok p) (passes : p.plan.passesGuardrails = true) :
    (r.respond cluster desired prior listed).run.Ensures law h fun result _ => Unvetoed result := by
  rcases Reconciler.respond_cases cluster prepared with ⟨respond, plan⟩ | respond
  · rw [plan] at passes
    rw [respond]
    exact ensures_createAll_unvetoed passes
  · rw [respond]
    exact ensures_carryThrough_unvetoed passes

/-- Under deletion protection a plan that passes the guardrails deletes nothing. -/
theorem toDelete_of_passes {d : HostDiff} {current : Nat} {hash : String}
    (passes : (HostPlan.ofDiff d current r.guardrails hash).passesGuardrails = true)
    (protects : r.protects = true) : d.toDelete = [] := by
  obtain ⟨g, guarded, forbidden⟩ := (Option.any_eq_true _ _).1 protects
  have none : (HostPlan.ofDiff d current r.guardrails hash).violations = [] :=
    List.isEmpty_iff.1 passes
  rw [HostPlan.violations_ofDiff, guarded, Option.elim_some] at none
  have deleted := (Guardrails.violations_eq_nil.1 none).2.2 forbidden
  rw [HostPlan.deletes_ofDiff] at deleted
  exact List.eq_nil_of_length_eq_zero deleted

/-- What is left of a run when the cluster has been listed. It is over, or it makes the calls of a
difference and ends with no veto. -/
inductive Course (r : Reconciler) (cluster : String) {α : Type} :
    Program Remote (Except SyncError α) → Prop
  | ends (result : Except SyncError α) : Course r cluster (.done result)
  | acts {d : HostDiff} {program : Program Remote (Except SyncError α)}
      (conducts : Conducts d cluster program) (spares : r.protects = true → d.toDelete = [])
      (unvetoed : program.Ensures Recorded [] fun result _ => Unvetoed result) :
      Course r cluster program

namespace Course

variable {program q : Program Remote (Except SyncError α)} {exchanges : List (Exchange Remote)}

theorem exchanges_eq_nil_of_veto {e : SyncError} (course : Course r cluster program)
    (run : program.Follows exchanges (.done (.error e))) (veto : e.IsVeto) : exchanges = [] := by
  cases course with
  | ends result => exact (Program.follows_done run).1
  | acts conducts spares unvetoed =>
    have fine := unvetoed.of_follows run (history_recorded exchanges [])
    exact absurd veto (fine e rfl)

theorem asksOnly_undeleting (course : Course r cluster program) (protects : r.protects = true) :
    program.AsksOnly fun call : Call => call.isDelete = false := by
  cases course with
  | ends result => trivial
  | @acts d _ conducts spares unvetoed =>
    have settling : ∀ call, d.Settling cluster call → call.isDelete = false := by
      intro call planned
      cases call with
      | delete id name =>
        have deleted : name ∈ d.toDelete := planned.2
        simp [spares protects] at deleted
      | list id => rfl
      | create id specs => rfl
      | update id u => rfl
    cases conducts with
    | settle only => exact only.mono settling
    | create some only => exact ⟨rfl, fun reply => (only reply).mono settling⟩

end Course

theorem course_respond : Course r cluster (r.respond cluster desired prior listed).run := by
  rcases conducts_respond r cluster desired prior listed with
    ⟨result, done⟩ | ⟨p, prepared, conducts⟩
  · rw [done]
    exact .ends result
  · by_cases passes : p.plan.passesGuardrails = true
    · apply Course.acts conducts
      · have plan := (Reconciler.prepare_ok prepared).plan
        rw [plan] at passes
        exact toDelete_of_passes passes
      · exact ensures_respond_unvetoed prepared passes
    · obtain ⟨result, done, -⟩ := run_respond_broken cluster prepared (Bool.eq_false_iff.2 passes)
      rw [done]
      exact .ends result

theorem course_createAll : Course r cluster (r.createAll cluster desired).run := by
  by_cases passes : (r.creationPlan desired).passesGuardrails = true
  · exact .acts conducts_createAll (fun _ => rfl) (ensures_createAll_unvetoed passes)
  · rw [run_createAll_broken cluster (Bool.eq_false_iff.2 passes)]
    exact .ends _

/-- A session that does nothing but prepare for a listing. -/
theorem course_prepareSession (f : Prepared → α) :
    Course r cluster
      (r.prepareSession desired prior listed >>= fun p => pure (f p) : Session α).run := by
  unfold Reconciler.prepareSession
  cases r.prepare desired prior listed with
  | ok p => exact .ends _
  | error e => exact .ends _

/-- The deletes of a destruction are not checked as a plan, but under deletion protection there
are none. -/
theorem course_execute_deletes {names : List String} (hosts : HostMap) (hash : String)
    (spares : r.protects = true → names = []) (f : Execution → α) :
    Course r cluster ((ExceptT.lift ((HostPlan.ofDiff { toDelete := names } hosts.size none
      hash).execute cluster hosts) : Session Execution) >>= fun e =>
        match e.failure with
        | some err => throw err
        | none => pure (f e)).run := by
  apply Course.acts (d := { toDelete := names }) ?_ spares
  · exact ensures_executing_unvetoed rfl hosts fun e h' => unvetoed_ok _
  · rw [run_lift_bind]
    apply (conducts_execute ..).bind
    intro e
    split <;> trivial

end Courses

namespace Undertaking

variable {r : Reconciler} {cluster : String} {exchanges : List (Exchange Remote)}

/-- Every undertaking begins with a listing. -/
theorem session_course (u : Undertaking) (r : Reconciler) (cluster : String) :
    ∃ f : List HostRecord → Session u.Report,
      u.session r cluster = listHosts cluster >>= f ∧
        ∀ listed, Course r cluster (f listed).run := by
  cases u with
  | reconcile desired prior =>
    exact ⟨_, r.reconcile_eq cluster desired prior, fun listed => course_respond⟩
  | create desired =>
    refine ⟨_, rfl, fun listed => ?_⟩
    split
    · exact course_createAll
    · exact .ends _
  | plan desired prior => exact ⟨_, rfl, fun listed => course_prepareSession Prepared.plan⟩
  | checkDrift desired prior => exact ⟨_, rfl, fun listed => course_prepareSession _⟩
  | destroy prior =>
    refine ⟨_, rfl, fun listed => ?_⟩
    dsimp only
    split
    next => exact .ends _
    next permitted =>
      apply course_execute_deletes
      intro protects
      change ¬ (r.protects && !(listed.filterMap HostRecord.name).isEmpty) = true at permitted
      simpa [protects] using permitted

/-- A run that ends with a veto has listed the cluster and made no other call. -/
theorem listing_of_veto {u : Undertaking} {e : SyncError}
    (run : (u.session r cluster).run.Follows exchanges (.done (.error e))) (veto : e.IsVeto) :
    ∃ listed : List HostRecord, exchanges = [⟨.list cluster, Except.ok listed⟩] := by
  obtain ⟨f, session, course⟩ := u.session_course r cluster
  rw [session, run_listHosts_bind] at run
  obtain ⟨reply, rest, rfl, after⟩ := Program.follows_ask run
  cases reply with
  | error err =>
    obtain ⟨-, ended⟩ := Program.follows_done after
    cases ended
    simp [SyncError.IsVeto] at veto
  | ok listed =>
    obtain rfl := (course listed).exchanges_eq_nil_of_veto after veto
    exact ⟨listed, rfl⟩

/-- Under deletion protection nothing ever asks for a delete. -/
theorem asksOnly_undeleting (u : Undertaking) (cluster : String) (protects : r.protects = true) :
    (u.session r cluster).run.AsksOnly fun call : Call => call.isDelete = false := by
  obtain ⟨f, session, course⟩ := u.session_course r cluster
  rw [session, run_listHosts_bind]
  refine ⟨rfl, fun reply => ?_⟩
  cases reply with
  | error e => trivial
  | ok listed => exact (course listed).asksOnly_undeleting protects

end Undertaking

end HostRoster
