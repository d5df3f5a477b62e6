import HostRoster.Proofs.Adoption
import HostRoster.Proofs.Calls
import HostRoster.Proofs.Execution

/-!
# Recorded hosts stay with their keys

A key whose recorded name is listed has its host before a run changes anything. No step
takes it away again, whatever the remote side replies: a create gives hosts to other keys,
an update leaves the name as it is, a delete is for a name that no key has, and the last
listing finds each key by the name it has by then.
-/
namespace HostRoster

section Steps

variable {key n : String}

namespace Execution

theorem recordedName_recordCreated {e : Execution} {mapped : HostMap} (other : key ∉ mapped.keys) :
    recordedName (e.recordCreated mapped).hosts key = recordedName e.hosts key := by
  have same : (e.recordCreated mapped).hosts.get? key = e.hosts.get? key :=
    KeyMap.get?_insertAll_of_not_mem other
  rw [recordedName, same, recordedName]

theorem recordedName_recordUpdated (e : Execution) (u : HostUpdate) (key : String) :
    recordedName (e.recordUpdated u).hosts key = recordedName e.hosts key := by
  rw [recordedName, recordUpdated, KeyMap.get?_map, recordedName]
  cases e.hosts.get? key with
  | none => rfl
  | some host =>
    by_cases addressed : key = u.key
    · rw [Option.map_some, if_pos addressed]
      rfl
    · rw [Option.map_some, if_neg addressed]

/-- A delete drops the first key of the deleted name, which is none of another name. -/
theorem recordedName_recordDeleted {e : Execution} {name : String}
    (known : recordedName e.hosts key = some n) (other : name ≠ n) :
    recordedName (e.recordDeleted name).hosts key = some n := by
  rw [recordDeleted]
  cases found : e.hosts.entries.find? fun h => h.2.name == some name with
  | none => exact known
  | some dropped =>
    have bears : dropped.2.name = some name := by simpa using List.find?_some found
    have kept : key ≠ dropped.1 := by
      rintro rfl
      have here : e.hosts.get? dropped.1 = some dropped.2 :=
        KeyMap.get?_eq_some.2 (List.mem_of_find?_eq_some found)
      rw [recordedName, here, Option.bind_some, bears] at known
      exact other (Option.some.inj known)
    change ((e.hosts.erase dropped.1).get? key).bind HostRecord.name = some n
    rw [KeyMap.get?_erase_of_ne kept]
    exact known

end Execution

end Steps

section Runs

variable {η : Type} {law : η → Exchange Remote → η → Prop} {cluster : String} {h : η}
  {key n : String}

/-- Created hosts go to the keys they were created for. -/
theorem ensures_createHosts_keys (creates : Declaration) :
    (createHosts cluster creates).run.Ensures law h fun result _ =>
      ∀ mapped, result = .ok mapped → mapped.keys.Perm creates.keys := by
  rw [createHosts, ensures_session_bind, ensures_submitCreates]
  intro reply h' _
  cases submitted creates reply with
  | error e => rintro mapped ⟨⟩
  | ok names =>
    simp only [ensures_correlateSubmitted]
    intro reply h'' _ mapped done
    cases reply with
    | error e => cases done
    | ok listed =>
      cases tied : correlateCreated (.ofDeclaration creates) (hostsNamed names listed) with
      | error e => simp [tied, Except.mapError] at done
      | ok m =>
        simp only [tied, Except.mapError, Except.ok.injEq] at done
        exact done ▸ (correlateCreated_handed tied).keys

theorem ensures_runCreates_names {creates : Declaration} (other : key ∉ creates.keys)
    (e : Execution) :
    (runCreates cluster creates e).Ensures law h fun e' _ =>
      recordedName e'.hosts key = recordedName e.hosts key := by
  rw [runCreates]
  split
  next => rfl
  next =>
    refine Program.ensures_bind.2 ((ensures_createHosts_keys creates).mono fun result _ keys => ?_)
    cases result with
    | error err => rfl
    | ok mapped =>
      exact Execution.recordedName_recordCreated fun has => other ((keys mapped rfl).mem_iff.1 has)

theorem ensures_runUpdates_names (key : String) (updates : List HostUpdate) (e : Execution) :
    (runUpdates cluster updates e).Ensures law h fun e' _ =>
      recordedName e'.hosts key = recordedName e.hosts key := by
  induction updates generalizing e h with
  | nil => rfl
  | cons u rest ih =>
    intro reply h' _
    cases reply with
    | error err => rfl
    | ok _ =>
      exact (ih (e.recordUpdated u)).mono fun e' _ same =>
        same.trans (e.recordedName_recordUpdated u key)

theorem ensures_runDeletes_names {names : List String} (spared : n ∉ names) {e : Execution}
    (known : recordedName e.hosts key = some n) :
    (runDeletes cluster names e).Ensures law h fun e' _ => recordedName e'.hosts key = some n := by
  induction names generalizing e h with
  | nil => exact known
  | cons name rest ih =>
    rw [List.mem_cons, not_or] at spared
    intro reply h' _
    cases reply with
    | error err => exact known
    | ok _ => exact ih spared.2 (Execution.recordedName_recordDeleted known (Ne.symm spared.1))

theorem ensures_andThen {e : Execution} {next : Execution → Program Remote Execution}
    {post : Execution → η → Prop} (stopped : post e h) (goes : (next e).Ensures law h post) :
    (e.andThen next).Ensures law h post := by
  rw [Execution.andThen]
  split
  · exact stopped
  · exact goes

/-- However far the plan for a difference is carried out, a key keeps its name if it is not to be
created and its name not to be deleted. -/
theorem ensures_execute_names {d : HostDiff} {hosts : HostMap} (other : key ∉ d.toCreate.keys)
    (spared : n ∉ d.toDelete) (known : recordedName hosts key = some n) (current : Nat)
    (guardrails : Option Guardrails) (hash : String) :
    ((HostPlan.ofDiff d current guardrails hash).execute cluster hosts).Ensures law h fun e _ =>
      recordedName e.hosts key = some n := by
  rw [HostPlan.execute]
  split
  next => exact known
  next =>
    rw [HostPlan.creates_ofDiff, HostPlan.updates_ofDiff, HostPlan.deletes_ofDiff,
      KeyMap.ofList_entries]
    refine Program.ensures_bind.2 ((ensures_runCreates_names other _).mono fun e h' created => ?_)
    have afterCreates : recordedName e.hosts key = some n := created.trans known
    refine ensures_andThen afterCreates (Program.ensures_bind.2
      ((ensures_runUpdates_names key d.toUpdate e).mono fun e' h'' updated => ?_))
    have afterUpdates : recordedName e'.hosts key = some n := updated.trans afterCreates
    exact ensures_andThen afterUpdates (ensures_runDeletes_names spared afterUpdates)

/-- Listing the cluster again changes no key's name. -/
theorem ensures_refresh_names {hosts : HostMap} (known : recordedName hosts key = some n) :
    (Reconciler.refresh cluster hosts).run.Ensures law h fun result _ =>
      ∀ m, result = .ok m → recordedName m key = some n := by
  rw [Reconciler.refresh, ensures_session_bind, ensures_listHosts]
  intro reply h' _
  cases reply with
  | error e => rintro m ⟨⟩
  | ok listed =>
    simp only [Except.mapError]
    split
    next none_pending =>
      rintro m ⟨rfl⟩
      have c := correlateByName_accounts hosts listed
      obtain ⟨recorded, hr, name⟩ := recordedName_eq_some.1 known
      -- two keys of one name need no care here: the later stays pending, and the refresh fails
      have found : key ∈ (correlateByName hosts listed).matched.keys := by
        by_contra missing
        have pending := (c.not_mem_matched (KeyMap.mem_keys_of_mem hr)).1 missing
        rw [List.isEmpty_iff.1 none_pending] at pending
        exact List.not_mem_nil pending
      obtain ⟨host, hh⟩ := KeyMap.mem_keys.1 found
      obtain ⟨wanted, m, hw, wantedName, listedAs⟩ := matchNames_pairs _ _ (c.mem_matched.1 hh)
      obtain rfl := KeyMap.eq_of_mem hr hw
      obtain rfl := Option.some.inj (name.symm.trans wantedName)
      exact recordedName_eq_some.2 ⟨host, hh, (mem_byName listedAs).2⟩
    next => rintro m ⟨⟩

end Runs

section Reconcile

variable {r : Reconciler} {cluster : String} {desired : Declaration} {prior : HostMap}
  {listed : List HostRecord} {p : Prepared} {key n : String}

namespace Reconciler

/-- With distinct names recorded, a key whose name is listed is matched to a host of that name. -/
theorem recordedName_correlate (distinct : DistinctNames prior) (declared : key ∈ desired.keys)
    (recorded : recordedName prior key = some n) (present : ∃ host ∈ listed, host.name = some n) :
    recordedName (correlate desired prior listed).matched key = some n := by
  have c := correlateNamed_accounts desired prior listed
  have keys := c.keys
  rw [keys_mergePriorNames] at keys
  rcases List.mem_append.1 (keys.mem_iff.2 declared) with matched | pending
  · obtain ⟨⟨key, host⟩, pair, rfl⟩ := List.mem_map.1 matched
    obtain ⟨m, same, name, -⟩ := name_of_mem_correlateNamed pair
    obtain rfl := Option.some.inj (recorded.symm.trans same)
    refine recordedName_eq_some.2 ⟨host, ?_, name⟩
    rw [(correlate_accounts desired prior listed).mem_matched, correlate,
      Correlation.pairs_adoptOrphans]
    exact List.mem_append_left _ pair
  · obtain ⟨host, listing, name⟩ := present
    exact absurd name ((mem_pending_named distinct).1 pending |>.2 n recorded host listing)

namespace Prepares

/-- A key that has a host is not to be created. -/
theorem not_mem_creates (h : r.Prepares desired prior listed p)
    (known : recordedName (correlate desired prior listed).matched key = some n) :
    key ∉ p.diff.toCreate.keys := by
  obtain ⟨host, matched, -⟩ := recordedName_eq_some.1 known
  have c := correlate_accounts desired prior listed
  have found := KeyMap.mem_keys_of_mem matched
  exact fun creates => (c.not_mem_matched (c.matched_subset found)).2
    (h.perm_creates.mem_iff.1 creates) found

/-- The name of a key's host is not to be deleted. -/
theorem not_mem_deletes (h : r.Prepares desired prior listed p)
    (known : recordedName (correlate desired prior listed).matched key = some n) :
    n ∉ p.diff.toDelete := by
  obtain ⟨host, matched, name⟩ := recordedName_eq_some.1 known
  have c := correlate_accounts desired prior listed
  intro planned
  rw [h.deletes] at planned
  obtain ⟨orphan, left, same⟩ := List.mem_filterMap.1 planned
  have taken := List.mem_map_of_mem (f := Prod.snd) (c.mem_matched.1 matched)
  exact c.wellNamed.apart (Multiset.mem_coe.2 taken) (Multiset.mem_coe.2 left)
    (name.trans same.symm)

end Prepares

/-- A key that has a host before the plan is carried through has a host of that name in the
outcome. -/
theorem ensures_carryThrough_names {η : Type} {law : η → Exchange Remote → η → Prop} {h : η}
    (prepares : r.Prepares desired prior listed p)
    (known : recordedName p.correlation.matched key = some n) :
    (carryThrough cluster p).run.Ensures law h fun result _ =>
      ∀ o, result = .ok o → recordedName o.hosts key = some n := by
  have matched := known
  rw [prepares.correlation] at matched
  rw [carryThrough]
  split
  next =>
    rintro o ⟨rfl⟩
    exact known
  next =>
    rw [prepares.plan]
    refine ensures_session_bind.2 (ensures_lift.2
      ((ensures_execute_names (prepares.not_mem_creates matched) (prepares.not_mem_deletes matched)
        known _ _ _).mono fun e h' kept => ?_))
    dsimp only
    split
    · rintro o ⟨⟩
    · refine ensures_session_bind.2 ((ensures_refresh_names kept).mono fun result _ found => ?_)
      cases result with
      | error err => rintro o ⟨⟩
      | ok m =>
        rintro o ⟨rfl⟩
        exact found m rfl

end Reconciler

/-- The calls that carry out a difference delete nothing else. -/
theorem Conducts.asksOnly_spared {α : Type} {d : HostDiff} {program : Program Remote α}
    (conducts : Conducts d cluster program) (spared : n ∉ d.toDelete) :
    program.AsksOnly fun call : Call => ∀ id, call ≠ .delete id n := by
  have settling : ∀ call, d.Settling cluster call → ∀ id, call ≠ .delete id n := by
    rintro _ planned id rfl
    exact spared planned.2
  cases conducts with
  | settle only => exact only.mono settling
  | create some only =>
    refine ⟨fun id => ?_, fun reply => (only reply).mono settling⟩
    rintro ⟨⟩

/-- A declared key that is recorded with a listed name keeps its host, whatever the remote side
replies: the run never deletes that name, and a successful run has the key under it. -/
theorem reconcile_keeps_recorded {rest : List (Exchange Remote)}
    {q : Program Remote (Except SyncError Outcome)} (distinct : DistinctNames prior)
    (declared : key ∈ desired.keys) (recorded : recordedName prior key = some n)
    (present : ∃ host ∈ listed, host.name = some n)
    (run : (r.reconcile cluster desired prior).run.Follows
      (⟨.list cluster, Except.ok listed⟩ :: rest) q) :
    (∀ e ∈ rest, ∀ id, e.request ≠ .delete id n) ∧
      ∀ o, q = .done (.ok o) →
        ∃ host, o.hosts.get? key = some host ∧ host.name = some n := by
  have matched := Reconciler.recordedName_correlate distinct declared recorded present
  have responds : (r.respond cluster desired prior listed).run.Follows rest q :=
    reconcile_follows_cons run
  constructor
  · rcases conducts_respond r cluster desired prior listed with
      ⟨result, done⟩ | ⟨p, prepared, conducts⟩
    · rw [done] at responds
      simp [(Program.follows_done responds).1]
    · have spared := (Reconciler.prepare_ok prepared).not_mem_deletes matched
      exact (conducts.asksOnly_spared spared).of_follows responds
  · rintro o rfl
    obtain ⟨host, listing, -⟩ := present
    -- the listing shows the host, so this is no start from nothing
    have known : ¬ (prior.isEmpty && listed.isEmpty) = true := by
      rw [Bool.and_eq_true_iff, List.isEmpty_iff]
      exact fun bare => List.ne_nil_of_mem listing bare.2
    rw [Reconciler.respond, if_neg known] at responds
    cases prepared : r.prepare desired prior listed with
    | error e =>
      rw [prepared] at responds
      cases (Program.follows_done responds).2
    | ok p =>
      rw [prepared] at responds
      have prepares := Reconciler.prepare_ok prepared
      have kept := (Reconciler.ensures_carryThrough_names prepares
        (prepares.correlation ▸ matched)).of_follows responds (history_recorded rest []) o rfl
      obtain ⟨host, found, name⟩ := recordedName_eq_some.1 kept
      exact ⟨host, KeyMap.get?_eq_some.2 found, name⟩

end Reconcile

/-- A key whose host is listed, and a key whose host is gone. -/
def twoZones : Declaration := .ofList [("a", { zone := "z" }), ("b", { zone := "y" })]

def recordedTwo : HostMap :=
  .ofList [
    ("a", { zone := "z", assignedName := some "h1" }),
    ("b", { zone := "y", assignedName := some "h2" })]

def firstHost : HostRecord := { zone := "z", assignedName := some "h1" }
def strayHost : HostRecord := { zone := "x", assignedName := some "h3" }
def newHost : HostRecord := { zone := "y", assignedName := some "h4" }
/-- The first host as the last listing shows it. -/
def movedHost : HostRecord := { firstHost with zone := "x" }

/-- The calls after the first listing: the missing host is created, the stray one deleted, and
the last listing shows the first host in another zone. -/
def replacingCalls : List (Exchange Remote) :=
  [⟨.create "c" [{ zone := "y" }], Except.ok ["h4"]⟩,
    ⟨.list "c", Except.ok [newHost, strayHost, firstHost]⟩,
    ⟨.delete "c" "h3", Except.ok ()⟩,
    ⟨.list "c", Except.ok [movedHost, newHost]⟩]

def replaced : Outcome :=
  { clusterId := "c", phase := .stable, hosts := .ofList [("a", movedHost), ("b", newHost)]
    created := 1, deleted := 1, unchanged := 1 }

theorem follows_replacingCalls : (({} : Reconciler).reconcile "c" twoZones recordedTwo).run.Follows
    (⟨.list "c", Except.ok [firstHost, strayHost]⟩ :: replacingCalls) (.done (.ok replaced)) :=
  .ask (.ask (.ask (.ask (.ask (.rest _)))))

/-- The recorded host is neither deleted nor lost when the cluster shows it changed. -/
theorem reconcile_keeps_recorded_moved :
    DistinctNames recordedTwo ∧ "a" ∈ twoZones.keys ∧ recordedName recordedTwo "a" = some "h1" ∧
      (∃ host ∈ [firstHost, strayHost], host.name = some "h1") ∧
      (∀ e ∈ replacingCalls, ∀ id, e.request ≠ .delete id "h1") ∧
      ∃ host, replaced.hosts.get? "a" = some host ∧ host.name = some "h1" := by
  have distinct : DistinctNames recordedTwo := by decide +kernel
  have declared : "a" ∈ twoZones.keys := by decide +kernel
  have recorded : recordedName recordedTwo "a" = some "h1" := by decide +kernel
  have present : ∃ host ∈ [firstHost, strayHost], host.name = some "h1" := by decide +kernel
  have kept := reconcile_keeps_recorded distinct declared recorded present follows_replacingCalls
  exact ⟨distinct, declared, recorded, present, kept.1, kept.2 replaced rfl⟩

end HostRoster
