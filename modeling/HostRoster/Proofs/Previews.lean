import HostRoster.Proofs.Enactment
import HostRoster.Proofs.Protection

/-!
# Previews and the run after them

A drift report reads its parts from where they arise: what is missing and what has changed from the
difference, what nobody manages from the hosts that are left over. A plan takes all three from the
difference, and a run creates all hosts of a bare cluster by a path of its own. Still they tell of
the same hosts, in the same order. The two previews list the cluster once and touch nothing.
-/
namespace HostRoster

/-- An undertaking that looks at the cluster once: at every point it has made one call, which lists
the hosts, whatever the reply to it is. -/
def Undertaking.OnlyLists (u : Undertaking) (r : Reconciler) (cluster : String) : Prop :=
  ∀ exchanges now, (u.session r cluster).run.Follows exchanges now →
    exchanges.map Exchange.call ++ now.awaited = [.list cluster]

/-- A drift report, a plan and a run without guardrails that start from one listing. -/
structure Reconciler.Concur (cluster : String) (desired : Declaration) (prior : HostMap)
    (listed : List HostRecord) (report : DriftReport) (P : HostPlan) : Prop where
  /-- Keys without a host are those of the creates. -/
  missing : report.missing = P.creates.map Prod.fst
  /-- Changed hosts are shown as the updates are. -/
  changed : report.changed = P.updates.map HostUpdate.summary
  /-- Hosts that nobody manages are deleted. -/
  unmanaged : report.unmanaged = P.deletes
  /-- There is a drift if one of these lists is not empty. -/
  lists : report.hasDrift = true ↔
    report.missing ≠ [] ∨ report.changed ≠ [] ∨ report.unmanaged ≠ []
  /-- There is a drift if the plan is not empty. -/
  planned : report.hasDrift = true ↔ P.isEmpty = false
  /-- There is a drift if a run changes something, wherever it ends. -/
  acts : ∀ hash made result,
    (({ configHash := hash } : Reconciler).reconcile cluster desired prior).run.Follows
      (⟨.list cluster, Except.ok listed⟩ :: made) (.done result) →
    (report.hasDrift = true ↔ mutations made ≠ [])
  /-- Without a drift a run asks nothing more. -/
  rests : ∀ hash made now,
    (({ configHash := hash } : Reconciler).reconcile cluster desired prior).run.Follows
      (⟨.list cluster, Except.ok listed⟩ :: made) now →
    report.hasDrift = false → made = [] ∧ ∃ o, now = .done (.ok o)
  /-- Every declared key is missing, changed or as it should be. -/
  declared : report.declaredCount = report.missing.length + report.changed.length + P.unchanged

section Previews

variable {α : Type} {r : Reconciler} {cluster : String} {desired : Declaration} {prior : HostMap}
  {listed : List HostRecord} {p : Prepared}

/-- A session that has its result as soon as the cluster is listed. -/
theorem onlyLists_of_listing {u : Undertaking} {f : List HostRecord → Session u.Report}
    (session : u.session r cluster = listHosts cluster >>= f)
    (rests : ∀ listed, ∃ result, (f listed).run = .done result) : u.OnlyLists r cluster := by
  intro exchanges now run
  rw [session, run_listHosts_bind] at run
  cases exchanges with
  | nil =>
    cases run
    rfl
  | cons e rest =>
    obtain ⟨reply, rfl, after⟩ := Program.follows_cons run
    have ended : ∃ result, rest = [] ∧ now = .done result := by
      cases reply with
      | error e => exact ⟨_, Program.follows_done after⟩
      | ok listed =>
        obtain ⟨result, finished⟩ := rests listed
        change (f listed).run.Follows rest now at after
        rw [finished] at after
        exact ⟨result, Program.follows_done after⟩
    obtain ⟨result, rfl, rfl⟩ := ended
    rfl

/-- Preparing within a session asks nothing. -/
theorem run_prepareSession_bind (f : Prepared → α) :
    (r.prepareSession desired prior listed >>= fun p => pure (f p) : Session α).run =
      .done (((r.prepare desired prior listed).mapError .reconcile).map f) := by
  unfold Reconciler.prepareSession
  cases r.prepare desired prior listed <;> rfl

theorem onlyLists_plan : (Undertaking.plan desired prior).OnlyLists r cluster :=
  onlyLists_of_listing rfl fun _ => ⟨_, run_prepareSession_bind Prepared.plan⟩

theorem onlyLists_checkDrift : (Undertaking.checkDrift desired prior).OnlyLists r cluster :=
  onlyLists_of_listing rfl fun _ => ⟨_, run_prepareSession_bind _⟩

/-- What is prepared does not depend on guardrails, but for how the plan is marked. -/
theorem Reconciler.prepare_congr (prepared : r.prepare desired prior listed = .ok p)
    (other : Reconciler) : other.prepare desired prior listed =
      .ok ⟨p.correlation, p.diff, .ofDiff p.diff listed.length other.guardrails other.configHash⟩ := by
  rw [prepare_eq] at prepared ⊢
  cases compared : diffCorrelation (mergePriorNames desired prior)
      (correlate desired prior listed) with
  | error e => simp [compared, Except.map] at prepared
  | ok d =>
    rw [compared] at prepared
    obtain rfl := Except.ok.inj prepared
    rfl

theorem HostDiff.hasChanges_iff {d : HostDiff} :
    d.hasChanges = true ↔ d.toCreate.keys ≠ [] ∨ d.toUpdate ≠ [] ∨ d.toDelete ≠ [] := by
  simp [HostDiff.hasChanges, KeyMap.isEmpty, KeyMap.keys, or_assoc]

/-- A plan is empty exactly if the difference is none. -/
theorem HostDiff.hasChanges_iff_plan {d : HostDiff} {current : Nat} {guardrails : Option Guardrails}
    {hash : String} :
    d.hasChanges = true ↔ (HostPlan.ofDiff d current guardrails hash).isEmpty = false := by
  rw [Bool.eq_false_iff, Ne, HostPlan.isEmpty_ofDiff, hasChanges_iff]
  simp only [KeyMap.ext_iff, KeyMap.keys, KeyMap.entries_empty, Ne, List.map_eq_nil_iff]
  tauto

/-- A run for an empty plan is over when the cluster is listed. -/
theorem respond_of_isEmpty (cluster : String)
    (prepared : r.prepare desired prior listed = .ok p)
    (empty : p.plan.isEmpty = true) (passes : p.plan.passesGuardrails = true) :
    ∃ o, (r.respond cluster desired prior listed).run = .done (.ok o) := by
  rcases Reconciler.respond_cases cluster prepared with ⟨respond, plan⟩ | respond
  · rw [plan] at empty passes
    obtain rfl := ((HostPlan.isEmpty_ofDiff ..).1 empty).1
    rw [respond, Reconciler.createAll]
    dsimp only
    rw [HostPlan.ensureGuardrails_passed passes]
    exact ⟨_, rfl⟩
  · rw [respond, Reconciler.carryThrough, if_pos empty]
    exact ⟨_, rfl⟩

variable {hash : String} {made : List (Exchange Remote)}
  {now : Program Remote (Except SyncError Outcome)} {result : Except SyncError Outcome}

theorem rests_of_unchanged (prepared : r.prepare desired prior listed = .ok p)
    (run : (({ configHash := hash } : Reconciler).reconcile cluster desired prior).run.Follows
      (⟨.list cluster, Except.ok listed⟩ :: made) now)
    (none : p.diff.hasChanges = false) : made = [] ∧ ∃ o, now = .done (.ok o) := by
  have again := Reconciler.prepare_congr prepared { configHash := hash }
  have empty : (HostPlan.ofDiff p.diff listed.length .none hash).isEmpty = true := by
    rw [← Bool.not_eq_false, ← HostDiff.hasChanges_iff_plan, none]
    decide
  obtain ⟨o, same⟩ := respond_of_isEmpty cluster again empty rfl
  have responds : Program.Follows _ made now := reconcile_follows_cons run
  rw [same] at responds
  obtain ⟨rfl, rfl⟩ := Program.follows_done responds
  exact ⟨rfl, o, rfl⟩

theorem acts_of_changed (prepared : r.prepare desired prior listed = .ok p)
    (run : (({ configHash := hash } : Reconciler).reconcile cluster desired prior).run.Follows
      (⟨.list cluster, Except.ok listed⟩ :: made) (.done result))
    (some : p.diff.hasChanges = true) : mutations made ≠ [] := by
  have again := Reconciler.prepare_congr prepared { configHash := hash }
  have begins : (Reconciler.respond _ cluster desired prior listed).run.Begins :=
    begins_respond again (HostDiff.hasChanges_iff_plan.1 some) rfl
  exact begins.mutations_ne_nil (reconcile_follows_cons run)

/-- What a drift report says of a preparation. -/
def Prepared.report (p : Prepared) (cluster : String) (desired : Declaration)
    (listed : List HostRecord) : DriftReport where
  clusterId := cluster
  hasDrift := p.diff.hasChanges
  missing := p.diff.toCreate.keys
  changed := p.diff.toUpdate.map HostUpdate.summary
  unmanaged := p.correlation.orphanNames
  declaredCount := desired.size
  observedCount := listed.length

theorem follows_checkDrift (prepared : r.prepare desired prior listed = .ok p) :
    (r.checkDrift cluster desired prior).run.Follows [⟨.list cluster, Except.ok listed⟩]
      (.done (.ok (p.report cluster desired listed))) := by
  rw [Reconciler.checkDrift, follows_listing, run_prepareSession_bind, prepared]
  exact .rest _

theorem follows_plan (prepared : r.prepare desired prior listed = .ok p) :
    (r.plan cluster desired prior).run.Follows [⟨.list cluster, Except.ok listed⟩]
      (.done (.ok p.plan)) := by
  rw [Reconciler.plan, follows_listing, run_prepareSession_bind, prepared]
  exact .rest _

/-- What a preparation reports and plans is what a run does. -/
theorem Reconciler.Prepares.concur (prepared : r.prepare desired prior listed = .ok p) :
    Concur cluster desired prior listed (p.report cluster desired listed) p.plan := by
  have prepares := prepare_ok prepared
  have plan := prepares.plan
  have deletes : p.correlation.orphanNames = p.diff.toDelete := by
    rw [prepares.deletes, prepares.correlation]
  have drifts : p.diff.hasChanges = true ↔ p.plan.isEmpty = false := by
    rw [plan]
    exact HostDiff.hasChanges_iff_plan
  constructor
  · rw [plan, HostPlan.creates_ofDiff]
    rfl
  · rw [plan, HostPlan.updates_ofDiff]
    rfl
  · rw [plan, HostPlan.deletes_ofDiff]
    exact deletes
  · change p.diff.hasChanges = true ↔
      p.diff.toCreate.keys ≠ [] ∨ p.diff.toUpdate.map HostUpdate.summary ≠ [] ∨
        p.correlation.orphanNames ≠ []
    rw [deletes, Ne, Ne, List.map_eq_nil_iff]
    exact HostDiff.hasChanges_iff
  · exact drifts
  · intro hash made result run
    refine ⟨acts_of_changed prepared run, fun changes => ?_⟩
    by_contra none
    obtain ⟨rfl, -⟩ := rests_of_unchanged prepared run (Bool.eq_false_iff.2 none)
    exact changes rfl
  · exact fun hash made now run => rests_of_unchanged prepared run
  · have all := prepares.size_eq
    have length := KeyMap.length_keys p.diff.toCreate
    change desired.size = p.diff.toCreate.keys.length +
      (p.diff.toUpdate.map HostUpdate.summary).length + p.plan.unchanged
    rw [plan, List.length_map, length]
    exact all.symm

/-- The drift report, the plan and a run tell the same story of one listing. The two previews make
no call but the one that lists the hosts. -/
theorem previews_concur (r : Reconciler) (cluster : String)
    (prepared : r.prepare desired prior listed = .ok p) :
    (∃ report P,
      (r.checkDrift cluster desired prior).run.Follows [⟨.list cluster, Except.ok listed⟩]
        (.done (.ok report)) ∧
      (r.plan cluster desired prior).run.Follows [⟨.list cluster, Except.ok listed⟩]
        (.done (.ok P)) ∧
      Reconciler.Concur cluster desired prior listed report P) ∧
    (Undertaking.plan desired prior).OnlyLists r cluster ∧
    (Undertaking.checkDrift desired prior).OnlyLists r cluster :=
  ⟨⟨_, _, follows_checkDrift prepared, follows_plan prepared, Reconciler.Prepares.concur prepared⟩,
    onlyLists_plan, onlyLists_checkDrift⟩

end Previews

/-- One listing that shows all kinds of differences, and a host that is taken over. -/
theorem previews_concur_untidy :
    ∃ p report P, ({} : Reconciler).prepare fourFates recordedThree untidyListing = .ok p ∧
      (({} : Reconciler).checkDrift "c" fourFates recordedThree).run.Follows
        [⟨.list "c", Except.ok untidyListing⟩] (.done (.ok report)) ∧
      (({} : Reconciler).plan "c" fourFates recordedThree).run.Follows
        [⟨.list "c", Except.ok untidyListing⟩] (.done (.ok P)) ∧
      Reconciler.Concur "c" fourFates recordedThree untidyListing report P ∧
      report.missing = ["makes"] ∧ report.changed = ["updates (h2): replication_source"] ∧
      report.unmanaged = ["h3"] ∧ report.hasDrift = true := by
  obtain ⟨p, prepared, creates, -, updates, -, deletes⟩ := prepares_untidy
  obtain ⟨⟨report, P, reported, planned, concur⟩, -⟩ := previews_concur {} "c" prepared
  obtain ⟨p', prepared', rfl⟩ := plan_follows planned
  obtain rfl := Except.ok.inj (prepared.symm.trans prepared')
  have plan := (Reconciler.prepare_ok prepared).plan
  have missing : report.missing = ["makes"] := by
    rw [concur.missing, plan, HostPlan.creates_ofDiff]
    exact creates
  have changed : report.changed = ["updates (h2): replication_source"] := by
    rw [concur.changed, plan, HostPlan.updates_ofDiff]
    exact updates
  have unmanaged : report.unmanaged = ["h3"] := by
    rw [concur.unmanaged, plan, HostPlan.deletes_ofDiff]
    exact deletes
  exact ⟨p, report, _, prepared, reported, planned, concur, missing, changed, unmanaged,
    concur.lists.2 (.inl (by simp [missing]))⟩

end HostRoster
