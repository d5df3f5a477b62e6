import HostRoster.Proofs.Accounting
import HostRoster.Proofs.Retention

/-!
# What is carried out is what was planned

The preview of a plan and the run that carries it out share only a part of their steps. Still
a run that reads the same first listing makes the calls of that plan and no other changes:
the one create, the updates and the deletes, in this order and each once. A call that fails
is its last, so that what is done is always the beginning of what was planned.
-/
namespace HostRoster

/-- The calls that carry out a plan: one create for all new hosts, the updates, the deletes. -/
def HostPlan.calls (p : HostPlan) (cluster : String) : List Call :=
  (if p.creates.isEmpty then [] else [.create cluster (p.creates.map Prod.snd)]) ++
    p.updates.map (.update cluster) ++ p.deletes.map (.delete cluster)

/-- The call of an exchange with a cluster. -/
def Exchange.call (e : Exchange Remote) : Call := e.request

/-- The calls among some exchanges that can change a cluster, in the order they were made. -/
def mutations (exchanges : List (Exchange Remote)) : List Call :=
  (exchanges.map Exchange.call).filter Call.isMutation

theorem mutations_append (before after : List (Exchange Remote)) :
    mutations (before ++ after) = mutations before ++ mutations after := by
  simp [mutations]

theorem mutations_cons (e : Exchange Remote) (rest : List (Exchange Remote)) :
    mutations (e :: rest) = [e.call].filter Call.isMutation ++ mutations rest :=
  mutations_append [e] rest

/-- The reply to a call is a failure. -/
def Exchange.IsFailure (e : Exchange Remote) : Prop := ∃ err, e.reply = Except.error err

section Enacting

variable {α β : Type} {failed : α → Prop} {calls : List Call} {p q : Program Remote α}
  {exchanges : List (Exchange Remote)}

/-- A program that has ended with a failure. -/
def Program.HasFailed (failed : α → Prop) (p : Program Remote α) : Prop :=
  ∃ value, p = .done value ∧ failed value

/-- A program that makes the given changes one after the other, with listings in between. It
ends as soon as a reply is a failure, and before all is done it ends with a failure only. -/
inductive Enacts (failed : α → Prop) : List Call → Program Remote α → Prop
  | done {calls : List Call} {value : α} (all : failed value ∨ calls = []) :
      Enacts failed calls (.done value)
  | ask {call : Call} {later : List Call} {next : Remote.Reply call → Program Remote α}
      (refused : ∀ e, (next (.error e)).HasFailed failed)
      (onward : ∀ answer, Enacts failed later (next (.ok answer))) :
      Enacts failed ([call].filter Call.isMutation ++ later) (.ask call next)

theorem Program.HasFailed.enacts (h : p.HasFailed failed) : Enacts failed calls p := by
  obtain ⟨value, rfl, failure⟩ := h
  exact .done (.inl failure)

theorem Program.HasFailed.of_follows (h : p.HasFailed failed) (run : p.Follows exchanges q) :
    exchanges = [] ∧ q.HasFailed failed := by
  obtain ⟨value, rfl, failure⟩ := h
  obtain ⟨rfl, rfl⟩ := Program.follows_done run
  exact ⟨rfl, value, rfl, failure⟩

namespace Enacts

/-- What a program that asks does next. -/
theorem of_ask {call : Call} {next : Remote.Reply call → Program Remote α}
    (h : Enacts failed calls (.ask call next)) :
    ∃ later, calls = [call].filter Call.isMutation ++ later ∧
      (∀ e, (next (.error e)).HasFailed failed) ∧ ∀ reply, Enacts failed later (next reply) := by
  cases h with
  | ask refused onward =>
    refine ⟨_, rfl, refused, fun reply => ?_⟩
    cases reply with
    | error e => exact (refused e).enacts
    | ok answer => exact onward answer

/-- Whatever the replies are, no changes are made but the given ones, in their order. -/
theorem mutations_initial (h : Enacts failed calls p) (run : p.Follows exchanges q) :
    mutations exchanges <+: calls := by
  induction run generalizing calls with
  | rest => exact List.nil_prefix
  | ask run ih =>
    obtain ⟨later, rfl, -, onward⟩ := h.of_ask
    rw [mutations_cons]
    exact (List.prefix_append_right_inj _).2 (ih (onward _))

/-- A run that ends without a failure has made every change. -/
theorem mutations_eq (h : Enacts failed calls p) {value : α}
    (run : p.Follows exchanges (.done value)) (fine : ¬ failed value) :
    mutations exchanges = calls := by
  generalize goal : Program.done value = q at run
  induction run generalizing calls with
  | rest =>
    subst goal
    cases h with
    | done all => exact (all.resolve_left fine).symm
  | ask run ih =>
    obtain ⟨later, rfl, -, onward⟩ := h.of_ask
    rw [mutations_cons]
    exact congrArg _ (ih (onward _) goal)

/-- Nothing is asked after a failure. -/
theorem silent (h : Enacts failed calls p) {before after : List (Exchange Remote)}
    {e : Exchange Remote} (run : p.Follows (before ++ e :: after) q) (failure : e.IsFailure) :
    after = [] ∧ q.HasFailed failed := by
  generalize whole : before ++ e :: after = exchanges at run
  induction run generalizing calls before with
  | rest => simp at whole
  | ask run ih =>
    obtain ⟨later, rfl, refused, onward⟩ := h.of_ask
    cases before with
    | nil =>
      obtain ⟨rfl, rfl⟩ := List.cons.inj whole
      obtain ⟨err, error⟩ := failure
      dsimp only at error
      rw [error] at run
      exact (refused err).of_follows run
    | cons first before => exact ih (onward _) (List.cons.inj whole).2

theorem bind {failed' : β → Prop} {f : α → Program Remote β} {more : List Call}
    (h : Enacts failed calls p) (fails : ∀ value, failed value → (f value).HasFailed failed')
    (onward : ∀ value, ¬ failed value → Enacts failed' more (f value)) :
    Enacts failed' (calls ++ more) (p >>= f) := by
  induction h with
  | @done calls value all =>
    by_cases failure : failed value
    · exact (fails value failure).enacts
    · rw [all.resolve_left failure]
      exact onward value failure
  | ask refused _ ih =>
    rw [List.append_assoc]
    refine .ask (fun e => ?_) ih
    obtain ⟨value, ended, failure⟩ := refused e
    show (_ >>= f).HasFailed failed'
    rw [ended]
    exact fails value failure

end Enacts

/-- The first change among some exchanges, with what comes before and after it. -/
theorem exists_first_mutation {call : Call} {later : List Call}
    (made : mutations exchanges = call :: later) :
    ∃ before e after, exchanges = before ++ e :: after ∧ mutations before = [] ∧
      e.call = call ∧ mutations after = later := by
  induction exchanges with
  | nil => exact absurd made (List.cons_ne_nil _ _).symm
  | cons e rest ih =>
    rw [mutations_cons] at made
    by_cases changes : e.call.isMutation = true
    · have own : [e.call].filter Call.isMutation = [e.call] := by simp [changes]
      rw [own] at made
      obtain ⟨same, others⟩ := List.cons.inj made
      exact ⟨[], e, rest, rfl, rfl, same, others⟩
    · have own : [e.call].filter Call.isMutation = [] := by simp [changes]
      rw [own] at made
      obtain ⟨before, e', after, rfl, none, same, others⟩ := ih made
      refine ⟨e :: before, e', after, rfl, ?_, same, others⟩
      rw [mutations_cons, own, none]
      rfl

/-- Beyond the first change nothing is made unless that has succeeded. -/
theorem Enacts.first_succeeded {call : Call} {later : List Call}
    (h : Enacts failed (call :: later) p) (run : p.Follows exchanges q) :
    mutations exchanges <+: [call] ∨ ∃ (before : List (Exchange Remote)) (answer : call.Answer)
      (after : List (Exchange Remote)), exchanges = before ++ ⟨call, Except.ok answer⟩ :: after ∧
        mutations before = [] ∧ mutations after <+: later := by
  have issued := h.mutations_initial run
  cases changes : mutations exchanges with
  | nil => exact .inl List.nil_prefix
  | cons made more =>
    rw [changes] at issued
    obtain ⟨rfl, others⟩ := List.cons_prefix_cons.1 issued
    obtain ⟨before, ⟨request, reply⟩, after, rfl, quiet, same, rfl⟩ := exists_first_mutation changes
    obtain rfl : request = made := same
    cases reply with
    | error err =>
      obtain ⟨rfl, -⟩ := h.silent run ⟨err, rfl⟩
      exact .inl (List.prefix_refl _)
    | ok answer => exact .inr ⟨before, answer, after, rfl, quiet, others⟩

/-- The result of a session that failed. -/
def Failing (result : Except SyncError α) : Prop := ∃ e, result = .error e

theorem not_failing_iff {result : Except SyncError α} : ¬ Failing result ↔ ∃ v, result = .ok v := by
  cases result <;> simp [Failing]

theorem hasFailed_throw (e : SyncError) : (throw e : Session α).run.HasFailed Failing :=
  ⟨_, rfl, e, rfl⟩

theorem enacts_throw (e : SyncError) : Enacts Failing calls (throw e : Session α).run :=
  (hasFailed_throw e).enacts

theorem enacts_pure (value : α) : Enacts Failing [] (pure value : Session α).run :=
  .done (.inr rfl)

theorem enacts_session_bind {x : Session α} {f : α → Session β} {more : List Call}
    (hx : Enacts Failing calls x.run) (hf : ∀ value, Enacts Failing more (f value).run) :
    Enacts Failing (calls ++ more) (x >>= f).run := by
  rw [ExceptT.run_bind]
  apply hx.bind
  · rintro _ ⟨e, rfl⟩
    exact hasFailed_throw e
  · intro result fine
    obtain ⟨value, rfl⟩ := not_failing_iff.1 fine
    exact hf value

variable {cluster : String}

theorem enacts_listHosts : Enacts Failing [] (listHosts cluster).run := by
  show Enacts Failing ([Call.list cluster].filter Call.isMutation ++ []) (.ask (.list cluster) _)
  apply Enacts.ask
  · exact fun e => hasFailed_throw (.remote .list cluster e)
  · exact fun listed => enacts_pure listed

theorem enacts_submitCreates (creates : Declaration) :
    Enacts Failing [.create cluster creates.values] (submitCreates cluster creates).run := by
  show Enacts Failing ([Call.create cluster creates.values].filter Call.isMutation ++ [])
    (.ask (.create cluster creates.values) _)
  apply Enacts.ask
  · exact fun e => hasFailed_throw _
  · intro (names : List String)
    show Enacts Failing [] (if names.length = creates.size then .done (.ok names) else .done _)
    split
    · exact enacts_pure names
    · exact enacts_throw _

theorem enacts_correlateSubmitted (creates : Declaration) (names : List String) :
    Enacts Failing [] (correlateSubmitted cluster creates names).run := by
  unfold correlateSubmitted
  apply enacts_session_bind enacts_listHosts
  intro listed
  dsimp only
  split
  · exact enacts_pure _
  · exact enacts_throw _

/-- Creating some hosts takes the one bulk create. -/
theorem enacts_createHosts (creates : Declaration) :
    Enacts Failing [.create cluster creates.values] (createHosts cluster creates).run :=
  enacts_session_bind (enacts_submitCreates creates) (enacts_correlateSubmitted creates)

/-- An execution that has been ended early. -/
def Execution.IsBroken (e : Execution) : Prop := e.failure.isSome = true

theorem enacts_runUpdates (updates : List HostUpdate) (e : Execution) :
    Enacts Execution.IsBroken (updates.map (.update cluster)) (runUpdates cluster updates e) := by
  induction updates generalizing e with
  | nil => exact .done (.inr rfl)
  | cons u rest ih =>
    show Enacts Execution.IsBroken ([Call.update cluster u].filter Call.isMutation ++ _)
      (.ask (.update cluster u) _)
    apply Enacts.ask
    · exact fun err => ⟨_, rfl, rfl⟩
    · exact fun _ => ih _

theorem enacts_runDeletes (names : List String) (e : Execution) :
    Enacts Execution.IsBroken (names.map (.delete cluster)) (runDeletes cluster names e) := by
  induction names generalizing e with
  | nil => exact .done (.inr rfl)
  | cons n rest ih =>
    show Enacts Execution.IsBroken ([Call.delete cluster n].filter Call.isMutation ++ _)
      (.ask (.delete cluster n) _)
    apply Enacts.ask
    · exact fun err => ⟨_, rfl, rfl⟩
    · exact fun _ => ih _

theorem enacts_runCreates (creates : Declaration) (e : Execution) :
    Enacts Execution.IsBroken
      (if creates.isEmpty then [] else [.create cluster creates.values])
      (runCreates cluster creates e) := by
  unfold runCreates
  split
  · exact .done (.inr rfl)
  · rw [← List.append_nil [_]]
    apply (enacts_createHosts creates).bind
    · rintro _ ⟨err, rfl⟩
      exact ⟨_, rfl, rfl⟩
    · intro result fine
      obtain ⟨mapped, rfl⟩ := not_failing_iff.1 fine
      exact .done (.inr rfl)

/-- A broken execution skips its other phases. -/
theorem Enacts.andThen {p : Program Remote Execution} {next : Execution → Program Remote Execution}
    {more : List Call} (h : Enacts Execution.IsBroken calls p)
    (onward : ∀ e, Enacts Execution.IsBroken more (next e)) :
    Enacts Execution.IsBroken (calls ++ more) (p >>= fun e => e.andThen next) := by
  apply h.bind
  · intro e broken
    exact ⟨e, if_pos broken, broken⟩
  · intro e sound
    unfold Execution.andThen
    split
    · exact absurd ‹_› sound
    · exact onward e

variable {d : HostDiff} {current : Nat} {guardrails : Option Guardrails} {hash : String}

theorem HostPlan.calls_ofDiff : (ofDiff d current guardrails hash).calls cluster =
    (if d.toCreate.isEmpty then [] else [.create cluster d.toCreate.values]) ++
      (d.toUpdate.map (.update cluster) ++ d.toDelete.map (.delete cluster)) := by
  unfold calls
  rw [creates_ofDiff, updates_ofDiff, deletes_ofDiff, List.append_assoc]
  rfl

theorem HostPlan.calls_of_isEmpty {P : HostPlan} (empty : P.isEmpty = true) :
    P.calls cluster = [] := by
  have none : P.actions = [] := List.isEmpty_iff.1 empty
  simp [calls, creates, updates, deletes, none]

/-- The execution of a plan makes the plan's calls. -/
theorem enacts_execute (hosts : HostMap) :
    Enacts Execution.IsBroken ((HostPlan.ofDiff d current guardrails hash).calls cluster)
      ((HostPlan.ofDiff d current guardrails hash).execute cluster hosts) := by
  unfold HostPlan.execute
  split
  · exact .done (.inl rfl)
  · rw [HostPlan.calls_ofDiff, HostPlan.creates_ofDiff, HostPlan.updates_ofDiff,
      HostPlan.deletes_ofDiff, KeyMap.ofList_entries]
    apply (enacts_runCreates d.toCreate _).andThen
    intro e
    exact (enacts_runUpdates d.toUpdate e).andThen (enacts_runDeletes d.toDelete)

variable {r : Reconciler} {desired : Declaration} {prior : HostMap} {listed : List HostRecord}

theorem enacts_refresh (hosts : HostMap) :
    Enacts Failing [] (Reconciler.refresh cluster hosts).run := by
  unfold Reconciler.refresh
  apply enacts_session_bind enacts_listHosts
  intro listed
  dsimp only
  split
  · exact enacts_pure _
  · exact enacts_throw _

theorem run_lift_bind (p : Program Remote α) (f : α → Session β) :
    ((ExceptT.lift p : Session α) >>= f).run = p >>= fun value => (f value).run := by
  rw [ExceptT.run_bind, ExceptT.run_lift, ← bind_pure_comp, bind_assoc]
  rfl

theorem enacts_carryThrough {p : Prepared} (h : r.Prepares desired prior listed p) :
    Enacts Failing (p.plan.calls cluster) (Reconciler.carryThrough cluster p).run := by
  unfold Reconciler.carryThrough
  split
  next empty =>
    rw [HostPlan.calls_of_isEmpty empty]
    exact enacts_pure _
  next =>
    rw [run_lift_bind, ← List.append_nil (p.plan.calls cluster), h.plan]
    apply (enacts_execute p.correlation.matched).bind
    · intro execution broken
      obtain ⟨e, failure⟩ := Option.isSome_iff_exists.1 broken
      rw [failure]
      exact hasFailed_throw e
    · intro execution sound
      rw [Option.not_isSome_iff_eq_none.1 sound]
      exact enacts_session_bind (enacts_refresh _) fun hosts => enacts_pure _

theorem enacts_createAll : Enacts Failing
    ((HostPlan.ofDiff { toCreate := desired } 0 r.guardrails r.configHash).calls cluster)
    (r.createAll cluster desired).run := by
  unfold Reconciler.createAll
  dsimp only
  split
  · exact enacts_throw _
  · rw [HostPlan.calls_ofDiff]
    split
    · exact enacts_pure _
    · exact enacts_session_bind (enacts_createHosts desired) fun hosts => enacts_pure _

/-- What a run does that has a plan for its listing. On a cluster without hosts and records the
plan is to create what is declared. -/
theorem Reconciler.respond_cases {p : Prepared} (cluster : String)
    (prepared : r.prepare desired prior listed = .ok p) :
    (r.respond cluster desired prior listed = r.createAll cluster desired ∧
        p.plan = .ofDiff { toCreate := desired } 0 r.guardrails r.configHash) ∨
      r.respond cluster desired prior listed = carryThrough cluster p := by
  unfold respond
  split
  next bare =>
    obtain ⟨noPrior, noHost⟩ := Bool.and_eq_true_iff.1 bare
    obtain rfl := KeyMap.isEmpty_iff.1 noPrior
    obtain rfl := List.isEmpty_iff.1 noHost
    obtain ⟨p', prepared', diff⟩ := r.prepare_bare desired
    obtain rfl := Except.ok.inj (prepared.symm.trans prepared')
    have plan := (prepare_ok prepared).plan
    rw [diff] at plan
    exact .inl ⟨rfl, plan⟩
  next =>
    rw [prepared]
    exact .inr rfl

/-- Having listed the cluster, a run makes the calls of the plan for this listing. -/
theorem enacts_respond {p : Prepared} (prepared : r.prepare desired prior listed = .ok p) :
    Enacts Failing (p.plan.calls cluster) (r.respond cluster desired prior listed).run := by
  rcases Reconciler.respond_cases cluster prepared with ⟨respond, plan⟩ | respond
  · rw [respond, plan]
    exact enacts_createAll
  · rw [respond]
    exact enacts_carryThrough (Reconciler.prepare_ok prepared)

theorem HostPlan.ensureGuardrails_refused {P : HostPlan} (broken : P.passesGuardrails = false) :
    P.ensureGuardrails = .error (.guardrails P.violations) := by
  simp [ensureGuardrails, broken]

theorem HostPlan.ensureGuardrails_passed {P : HostPlan} (passes : P.passesGuardrails = true) :
    P.ensureGuardrails = .ok () := by
  simp [ensureGuardrails, passes]

/-- A run for a plan that breaks a guardrail makes no change. -/
theorem enacts_respond_refused {p : Prepared} (prepared : r.prepare desired prior listed = .ok p)
    (broken : p.plan.passesGuardrails = false) :
    Enacts Failing [] (r.respond cluster desired prior listed).run := by
  rcases Reconciler.respond_cases cluster prepared with ⟨respond, plan⟩ | respond
  · rw [plan] at broken
    rw [respond, Reconciler.createAll]
    dsimp only
    rw [HostPlan.ensureGuardrails_refused broken]
    exact enacts_throw _
  · rw [respond, Reconciler.carryThrough]
    split
    · exact enacts_pure _
    · rw [run_lift_bind, HostPlan.execute, HostPlan.ensureGuardrails_refused broken]
      exact enacts_throw _

/-- A program that asks for a change first. -/
def Program.Begins (p : Program Remote α) : Prop :=
  ∃ (call : Call) (next : Remote.Reply call → Program Remote α),
    p = .ask call next ∧ call.isMutation = true

theorem Program.Begins.bind {p : Program Remote α} (h : p.Begins) (f : α → Program Remote β) :
    (p >>= f).Begins := by
  obtain ⟨call, next, rfl, changes⟩ := h
  exact ⟨call, _, rfl, changes⟩

/-- Some change has been made in every run that has ended. -/
theorem Program.Begins.mutations_ne_nil {p : Program Remote α} (h : p.Begins) {value : α}
    (run : p.Follows exchanges (.done value)) : mutations exchanges ≠ [] := by
  obtain ⟨call, next, rfl, changes⟩ := h
  obtain ⟨reply, rest, rfl, -⟩ := Program.follows_ask run
  intro none
  rw [mutations_cons] at none
  have first : [call].filter Call.isMutation = [] := (List.append_eq_nil_iff.1 none).1
  simp [changes] at first

theorem begins_createHosts (creates : Declaration) : (createHosts cluster creates).run.Begins :=
  ⟨.create cluster creates.values, _, rfl, rfl⟩

theorem begins_execute (hosts : HostMap)
    (some : (HostPlan.ofDiff d current guardrails hash).isEmpty = false)
    (passes : (HostPlan.ofDiff d current guardrails hash).passesGuardrails = true) :
    ((HostPlan.ofDiff d current guardrails hash).execute cluster hosts).Begins := by
  unfold HostPlan.execute
  rw [HostPlan.ensureGuardrails_passed passes, HostPlan.creates_ofDiff, HostPlan.updates_ofDiff,
    HostPlan.deletes_ofDiff, KeyMap.ofList_entries]
  dsimp only
  unfold runCreates
  split
  next noCreate =>
    rw [Bool.eq_false_iff, Ne, HostPlan.isEmpty_ofDiff] at some
    cases updates : d.toUpdate with
    | cons u rest => exact ⟨.update cluster u, _, rfl, rfl⟩
    | nil =>
      cases deletes : d.toDelete with
      | cons n rest => exact ⟨.delete cluster n, _, rfl, rfl⟩
      | nil => exact absurd ⟨KeyMap.isEmpty_iff.1 noCreate, updates, deletes⟩ some
  next => exact ((begins_createHosts d.toCreate).bind _).bind _

/-- A run for a plan with changes to make goes on with the first of them. -/
theorem begins_respond {p : Prepared} (prepared : r.prepare desired prior listed = .ok p)
    (some : p.plan.isEmpty = false) (passes : p.plan.passesGuardrails = true) :
    (r.respond cluster desired prior listed).run.Begins := by
  rcases Reconciler.respond_cases cluster prepared with ⟨respond, plan⟩ | respond
  · rw [plan] at some passes
    rw [respond, Reconciler.createAll]
    dsimp only
    rw [HostPlan.ensureGuardrails_passed passes]
    dsimp only
    split
    next none =>
      rw [(HostPlan.isEmpty_ofDiff ..).2 ⟨KeyMap.isEmpty_iff.1 none, rfl, rfl⟩] at some
      exact absurd some (by decide)
    next =>
      rw [ExceptT.run_bind]
      exact (begins_createHosts desired).bind _
  · rw [respond, Reconciler.carryThrough, if_neg (by simp [some]), run_lift_bind]
    have plan := (Reconciler.prepare_ok prepared).plan
    rw [plan] at some passes ⊢
    exact (begins_execute _ some passes).bind _

/-- The preview ends with the plan that is prepared for its listing. -/
theorem plan_follows {P : HostPlan}
    (planned : (r.plan cluster desired prior).run.Follows [⟨.list cluster, Except.ok listed⟩]
      (.done (.ok P))) :
    ∃ p, r.prepare desired prior listed = .ok p ∧ p.plan = P := by
  unfold Reconciler.plan at planned
  rw [run_listHosts_bind] at planned
  obtain ⟨reply, same, after⟩ := Program.follows_cons planned
  cases same
  unfold Reconciler.prepareSession at after
  cases prepared : r.prepare desired prior listed with
  | error e =>
    simp only [prepared] at after
    exact nomatch (Program.follows_done after).2
  | ok p =>
    simp only [prepared] at after
    have ended := (Program.follows_done after).2
    exact ⟨p, rfl, (Except.ok.inj (Program.done.inj ended)).symm⟩

/-- No change stands twice in a plan. -/
theorem Reconciler.Prepares.nodup_calls {p : Prepared} (h : r.Prepares desired prior listed p) :
    (p.plan.calls cluster).Nodup := by
  have once := h.accountsOnce
  have updates : (p.diff.toUpdate.map HostUpdate.key).Nodup := by
    have keys := once.keys.nodup_iff.2 (KeyMap.nodup_keys _)
    exact (List.nodup_append.1 (List.nodup_append.1 keys).1).2.1
  have deletes : p.diff.toDelete.Nodup := (List.nodup_append.1 once.nodup_names).2.1
  rw [h.plan, HostPlan.calls_ofDiff]
  have settling : (p.diff.toUpdate.map (Call.update cluster) ++
      p.diff.toDelete.map (Call.delete cluster)).Nodup := by
    apply List.Nodup.append
    · exact updates.of_map.map fun a b same => (Call.update.inj same).2
    · exact deletes.map fun a b same => (Call.delete.inj same).2
    · simp [List.disjoint_left]
  split
  · exact settling
  · apply List.Nodup.append (List.nodup_singleton _) settling
    simp

/-- A run that has listed the cluster carries out a plan. -/
structure HostPlan.EnactedBy (P : HostPlan) (cluster : String) (made : List (Exchange Remote))
    (now : Program Remote (Except SyncError Outcome)) : Prop where
  /-- A plan that is empty or breaks a guardrail changes nothing. -/
  idle : P.isEmpty = true ∨ P.passesGuardrails = false → mutations made = []
  /-- Any other plan is begun. -/
  begun : P.isEmpty = false → P.passesGuardrails = true → ∀ result, now = .done result →
    mutations made ≠ []
  /-- No other changes are made than those of the plan, and they are made in its order. -/
  ordered : mutations made <+: P.calls cluster
  /-- The plan asks for no change twice. -/
  once : (P.calls cluster).Nodup
  /-- It asks for its new hosts in the order of their keys. -/
  ascending : (P.creates.map Prod.fst).Pairwise fun a b => compare a b = .lt
  /-- A run that succeeds has made every change. -/
  complete : ∀ o, now = .done (.ok o) → mutations made = P.calls cluster
  /-- A call that fails is the last one, and the run fails. -/
  silent : ∀ before e after, made = before ++ e :: after → e.IsFailure →
    after = [] ∧ ∃ err, now = .done (.error err)

/-- A run carries out the plan that the preview shows for the run's first listing. -/
theorem reconcile_enacts_plan {P : HostPlan} {made : List (Exchange Remote)}
    {now : Program Remote (Except SyncError Outcome)}
    (planned : (r.plan cluster desired prior).run.Follows [⟨.list cluster, Except.ok listed⟩]
      (.done (.ok P)))
    (run : (r.reconcile cluster desired prior).run.Follows
      (⟨.list cluster, Except.ok listed⟩ :: made) now) :
    P.EnactedBy cluster made now := by
  obtain ⟨p, prepared, rfl⟩ := plan_follows planned
  have prepares := Reconciler.prepare_ok prepared
  have responds := reconcile_follows_cons run
  have enacts : Enacts Failing (p.plan.calls cluster) _ := enacts_respond prepared
  constructor
  · rintro (empty | broken)
    · rw [HostPlan.calls_of_isEmpty empty] at enacts
      exact List.prefix_nil.1 (enacts.mutations_initial responds)
    · exact List.prefix_nil.1 ((enacts_respond_refused prepared broken).mutations_initial responds)
  · rintro some passes result rfl
    exact (begins_respond prepared some passes).mutations_ne_nil responds
  · exact enacts.mutations_initial responds
  · exact prepares.nodup_calls
  · rw [prepares.plan, HostPlan.creates_ofDiff]
    exact KeyMap.ascending_keys _
  · rintro o rfl
    exact enacts.mutations_eq responds fun ⟨e, h⟩ => nomatch h
  · rintro before e after rfl failure
    obtain ⟨last, result, ended, err, rfl⟩ := enacts.silent responds failure
    exact ⟨last, err, ended⟩

end Enacting

/-- The plan to replace the host of one of two keys. -/
theorem reconcile_enacts_plan_replacing :
    ∃ P, (({} : Reconciler).plan "c" twoZones recordedTwo).run.Follows
        [⟨.list "c", Except.ok [firstHost, strayHost]⟩] (.done (.ok P)) ∧
      P.calls "c" = [.create "c" [{ zone := "y" }], .delete "c" "h3"] ∧
      P.EnactedBy "c" replacingCalls (.done (.ok replaced)) := by
  have evaluated : ∃ P, (({} : Reconciler).plan "c" twoZones recordedTwo).run.Follows
      [⟨.list "c", Except.ok [firstHost, strayHost]⟩] (.done (.ok P)) ∧
      P.calls "c" = [.create "c" [{ zone := "y" }], .delete "c" "h3"] :=
    ⟨_, .ask (.rest _), by decide +kernel⟩
  obtain ⟨P, planned, calls⟩ := evaluated
  exact ⟨P, planned, calls, reconcile_enacts_plan planned follows_replacingCalls⟩

end HostRoster
