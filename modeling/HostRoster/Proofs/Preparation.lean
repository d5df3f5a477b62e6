import HostRoster.Proofs.Diff
import HostRoster.Reconciliation

/-!
# What a run knows before it changes anything

The declaration takes over the recorded names, the listing is tied to it by these
names, keys without a name take over what is left, and the difference is planned.
Nothing but a changed placement keeps a listing from being planned for.
-/
namespace HostRoster

/-- The name recorded for a key. -/
def recordedName (prior : HostMap) (key : String) : Option String :=
  (prior.get? key).bind HostRecord.name

@[simp] theorem HostSpec.name_named (s : HostSpec) {prior : HostMap} {key : String} :
    (s.named (recordedName prior key)).name = recordedName prior key := by
  rw [recordedName]
  cases prior.get? key with
  | none => rfl
  | some r => cases h : r.assignedName <;> simp [HostSpec.named, HostRecord.name, h]

theorem mergePriorNames_eq (desired : Declaration) (prior : HostMap) :
    mergePriorNames desired prior = desired.map fun key s => s.named (recordedName prior key) := rfl

@[simp] theorem keys_mergePriorNames (desired : Declaration) (prior : HostMap) :
    (mergePriorNames desired prior).keys = desired.keys :=
  KeyMap.keys_map ..

theorem mem_mergePriorNames {desired : Declaration} {prior : HostMap} {key : String}
    {wanted : HostRecord} :
    (key, wanted) ∈ (mergePriorNames desired prior).entries ↔
      ∃ s, (key, s) ∈ desired.entries ∧ wanted = s.named (recordedName prior key) := by
  rw [mergePriorNames_eq, KeyMap.entries_map, List.mem_map]
  constructor
  · rintro ⟨e, he, eq⟩
    obtain ⟨rfl, rfl⟩ := Prod.mk.inj eq
    exact ⟨e.2, he, rfl⟩
  · rintro ⟨s, hs, rfl⟩
    exact ⟨_, hs, rfl⟩

theorem mem_retiredNames {desired : Declaration} {prior : HostMap} {n : String} :
    n ∈ retiredNames desired prior ↔
      ∃ e ∈ prior.entries, e.1 ∉ desired.keys ∧ e.2.name = some n := by
  simp only [retiredNames, List.mem_filterMap, List.mem_filter, Bool.not_eq_true',
    ← Bool.not_eq_true, KeyMap.contains_iff, and_assoc]

namespace Reconciler

/-- The listing as a run ties it to the declared keys. -/
def correlate (desired : Declaration) (prior : HostMap) (listed : List HostRecord) : Correlation :=
  (correlateByName (mergePriorNames desired prior) listed).adoptOrphans
    (mergePriorNames desired prior) (retiredNames desired prior)

theorem correlate_accounts (desired : Declaration) (prior : HostMap) (listed : List HostRecord) :
    (correlate desired prior listed).Accounts (mergePriorNames desired prior) listed :=
  (correlateByName_accounts _ _).adoptOrphans _

variable {r : Reconciler} {desired : Declaration} {prior : HostMap} {listed : List HostRecord}

/-- What a preparation is made of. -/
structure Prepares (r : Reconciler) (desired : Declaration) (prior : HostMap)
    (listed : List HostRecord) (p : Prepared) : Prop where
  correlation : p.correlation = correlate desired prior listed
  judged : Judged (correlate desired prior listed).matched
    (mergePriorNames desired prior).entries p.diff
  deletes : p.diff.toDelete = (correlate desired prior listed).orphanNames
  plan : p.plan = .ofDiff p.diff listed.length r.guardrails r.configHash

theorem prepare_eq : r.prepare desired prior listed =
    (diffCorrelation (mergePriorNames desired prior) (correlate desired prior listed)).map fun d =>
      ⟨correlate desired prior listed, d, .ofDiff d listed.length r.guardrails r.configHash⟩ := by
  rw [prepare, correlate]
  cases diffCorrelation (mergePriorNames desired prior)
    ((correlateByName (mergePriorNames desired prior) listed).adoptOrphans
      (mergePriorNames desired prior) (retiredNames desired prior)) <;> rfl

theorem prepare_ok {p : Prepared} (h : r.prepare desired prior listed = .ok p) :
    r.Prepares desired prior listed p := by
  rw [prepare_eq] at h
  cases done : diffCorrelation (mergePriorNames desired prior) (correlate desired prior listed) with
  | error e => simp [done, Except.map] at h
  | ok d =>
    simp only [done, Except.map, Except.ok.injEq] at h
    subst h
    obtain ⟨judged, deletes⟩ := (correlate_accounts desired prior listed).diffCorrelation_ok done
    exact ⟨rfl, judged, deletes, rfl⟩

theorem prepare_error {e : ReconcileError} (h : r.prepare desired prior listed = .error e) :
    ∃ key name field wanted found, e = .placementChanged key name field wanted found := by
  rw [prepare_eq] at h
  cases done : diffCorrelation (mergePriorNames desired prior) (correlate desired prior listed) with
  | error e' =>
    simp only [done, Except.map, Except.error.injEq] at h
    exact (correlate_accounts desired prior listed).diffCorrelation_error (h ▸ done)
  | ok d => simp [done, Except.map] at h

/-- If every matched host stands where its key is declared to be, a preparation succeeds. -/
theorem prepare_of_placed (r : Reconciler) (desired : Declaration) (prior : HostMap)
    (listed : List HostRecord) (h : ∀ key s host, (key, s) ∈ desired.entries →
      (key, host) ∈ (correlate desired prior listed).matched.entries →
      s.zone = host.zone ∧ (s.subnetId = none ∨ host.subnetId = s.subnetId)) :
    ∃ p, r.prepare desired prior listed = .ok p := by
  have c := correlate_accounts desired prior listed
  obtain ⟨d, judged⟩ := judgeAll_of_placed (correlate desired prior listed).matched
    (mergePriorNames desired prior).entries fun e he host found => by
      obtain ⟨s, hs, wanted⟩ := mem_mergePriorNames.1 he
      refine ⟨c.named found, placementChange_eq_none.2 ?_⟩
      rw [wanted]
      exact h e.1 s host hs (KeyMap.get?_eq_some.1 found)
  rw [prepare_eq, c.diffCorrelation_eq, judged]
  exact ⟨_, rfl⟩

/-- With no recorded name and no host, all declared hosts are to be created. -/
theorem prepare_bare (r : Reconciler) (desired : Declaration) :
    ∃ p, r.prepare desired ∅ [] = .ok p ∧ p.diff = { toCreate := desired } := by
  have c := correlate_accounts desired ∅ []
  obtain ⟨none_matched, none_left⟩ := List.append_eq_nil_iff.1 (c.records.eq_nil)
  have matched : (correlate desired ∅ []).matched = ∅ := by
    refine KeyMap.ext (List.eq_nil_iff_forall_not_mem.2 fun e he => ?_)
    have pair := c.mem_matched.1 he
    simp [List.map_eq_nil_iff.1 none_matched] at pair
  obtain ⟨p, prepared⟩ := prepare_of_placed r desired ∅ []
    fun key s host _ hh => by simp [matched] at hh
  have preps := prepare_ok prepared
  have absent : ∀ key, (∅ : HostMap).get? key = none := fun key => KeyMap.get?_eq_none.2 (by simp)
  have creates : p.diff.toCreate = desired := by
    refine KeyMap.ext ?_
    rw [preps.judged.creates, matched, List.filter_eq_self.2 (by simp [absent]), mergePriorNames_eq,
      KeyMap.entries_map, List.map_map]
    exact List.map_id' _
  have updates : p.diff.toUpdate = [] := by
    rw [preps.judged.updates, matched]
    simp [absent]
  have unchanged : p.diff.unchanged = [] := by
    rw [preps.judged.unchanged, matched]
    simp [absent]
  have deletes : p.diff.toDelete = [] := by
    rw [preps.deletes, Correlation.orphanNames, none_left]
    rfl
  refine ⟨p, prepared, ?_⟩
  obtain ⟨correlation, diff, plan⟩ := p
  obtain ⟨toCreate, toUpdate, toDelete, keep⟩ := diff
  subst creates updates unchanged deletes
  rfl

namespace Prepares

variable {p : Prepared}

/-- The keys to create are those that are left without a host. -/
theorem entries_creates (h : r.Prepares desired prior listed p) :
    p.diff.toCreate.entries =
      desired.entries.filter fun e => e.1 ∈ (correlate desired prior listed).pending := by
  have c := correlate_accounts desired prior listed
  have same : ∀ e : String × HostSpec, (e.1, (e.2.named (recordedName prior e.1)).toHostSpec) = e :=
    fun e => rfl
  rw [h.judged.creates, mergePriorNames_eq, KeyMap.entries_map, List.filter_map, List.map_map]
  simp only [Function.comp_def, same, List.map_id']
  refine List.filter_congr fun e he => ?_
  have declared : e.1 ∈ (mergePriorNames desired prior).keys :=
    keys_mergePriorNames desired prior ▸ KeyMap.mem_keys_of_mem he
  rw [Bool.eq_iff_iff, Option.isNone_iff_eq_none, KeyMap.get?_eq_none, decide_eq_true_eq]
  exact c.not_mem_matched declared

theorem mem_creates (h : r.Prepares desired prior listed p) {key : String} {s : HostSpec} :
    (key, s) ∈ p.diff.toCreate.entries ↔
      (key, s) ∈ desired.entries ∧ key ∈ (correlate desired prior listed).pending := by
  rw [h.entries_creates, List.mem_filter, decide_eq_true_eq]

theorem perm_creates (h : r.Prepares desired prior listed p) :
    p.diff.toCreate.keys.Perm (correlate desired prior listed).pending := by
  have c := correlate_accounts desired prior listed
  refine (List.perm_ext_iff_of_nodup (KeyMap.nodup_keys _)
    (List.nodup_append.1 c.nodup_keys).2.1).2 fun key => ?_
  rw [KeyMap.mem_keys]
  constructor
  · rintro ⟨s, hs⟩
    exact (h.mem_creates.1 hs).2
  · intro pending
    have declared : key ∈ desired.keys := by
      have wanted := c.keys.mem_iff.1 (List.mem_append_right _ pending)
      rwa [keys_mergePriorNames] at wanted
    obtain ⟨s, hs⟩ := KeyMap.mem_keys.1 declared
    exact ⟨s, h.mem_creates.2 ⟨hs, pending⟩⟩

/-- An update goes to the host under its key, by that host's name. -/
theorem mem_updates (h : r.Prepares desired prior listed p) {u : HostUpdate} :
    u ∈ p.diff.toUpdate ↔ ∃ s host, (u.key, s) ∈ desired.entries ∧
      (u.key, host) ∈ (correlate desired prior listed).matched.entries ∧
      updateFor u.key (s.named (recordedName prior u.key)) host = some u := by
  rw [h.judged.mem_updates]
  constructor
  · rintro ⟨wanted, host, hw, hh, change⟩
    obtain ⟨s, hs, rfl⟩ := mem_mergePriorNames.1 hw
    exact ⟨s, host, hs, hh, change⟩
  · rintro ⟨s, host, hs, hh, change⟩
    exact ⟨_, host, mem_mergePriorNames.2 ⟨s, hs, rfl⟩, hh, change⟩

/-- An update asks for what is declared for its key, by the name of the matched host. -/
theorem update_addressed (h : r.Prepares desired prior listed p) {u : HostUpdate}
    (hu : u ∈ p.diff.toUpdate) :
    ∃ s host, (u.key, s) ∈ desired.entries ∧
      (u.key, host) ∈ (correlate desired prior listed).matched.entries ∧ host.name = some u.name ∧
      u.assignPublicIp = s.assignPublicIp ∧ u.replicationSource = s.replicationSource := by
  obtain ⟨s, host, hs, hh, change⟩ := h.mem_updates.1 hu
  have c := correlate_accounts desired prior listed
  obtain ⟨n, name⟩ := Option.isSome_iff_exists.1 (c.named (KeyMap.get?_eq_some.2 hh))
  obtain ⟨-, addressed, flag, source, -⟩ := updateFor_eq_some change
  exact ⟨s, host, hs, hh, by rw [addressed, name, Option.getD_some], flag, source⟩

/-- A matched host stands where its key is declared to be. -/
theorem placed (h : r.Prepares desired prior listed p) {key : String} {s : HostSpec}
    {host : HostRecord} (hs : (key, s) ∈ desired.entries)
    (hh : (key, host) ∈ (correlate desired prior listed).matched.entries) :
    s.zone = host.zone ∧ (s.subnetId = none ∨ host.subnetId = s.subnetId) :=
  placementChange_eq_none.1 (h.judged.placed (key, s.named (recordedName prior key))
    (mem_mergePriorNames.2 ⟨s, hs, rfl⟩) host (KeyMap.get?_eq_some.2 hh)).2

theorem size_eq (h : r.Prepares desired prior listed p) :
    p.diff.toCreate.size + p.diff.toUpdate.length + p.diff.unchanged.length = desired.size := by
  rw [h.judged.size_eq, mergePriorNames_eq, KeyMap.entries_map, List.length_map, KeyMap.size]

end Prepares

/-- What a run does with a preparation: nothing if the plan is empty, else the plan is carried
out and the cluster listed again. -/
def carryThrough (cluster : String) (p : Prepared) : Session Outcome :=
  if p.plan.isEmpty then
    return { clusterId := cluster, phase := .stable, hosts := p.correlation.matched,
             unchanged := p.correlation.matched.size, adopted := p.correlation.adopted }
  else do
    let execution ← ExceptT.lift (p.plan.execute cluster p.correlation.matched)
    match execution.failure with
    | some e => throw e
    | none =>
      let hosts ← refresh cluster execution.hosts
      return { clusterId := cluster, phase := .stable, hosts, created := execution.created,
               updated := execution.updated, deleted := execution.deleted,
               unchanged := p.diff.unchanged.length, adopted := p.correlation.adopted }

/-- What a run does with the listing it starts from. -/
def respond (r : Reconciler) (cluster : String) (desired : Declaration) (prior : HostMap)
    (listed : List HostRecord) : Session Outcome :=
  if prior.isEmpty && listed.isEmpty then r.createAll cluster desired
  else
    match r.prepare desired prior listed with
    | .error e => throw (.reconcile e)
    | .ok p => carryThrough cluster p

theorem reconcile_eq (r : Reconciler) (cluster : String) (desired : Declaration) (prior : HostMap) :
    r.reconcile cluster desired prior = listHosts cluster >>= r.respond cluster desired prior := by
  rw [reconcile]
  refine congrArg _ (funext fun listed => ?_)
  rw [respond, prepareSession]
  cases r.prepare desired prior listed <;> rfl

end Reconciler

end HostRoster
