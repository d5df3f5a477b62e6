import HostRoster.Proofs.Execution
import HostRoster.Proofs.Preparation

/-!
# Whether every key has a host of its own

Whatever the remote side replies, the hosts of a successful outcome have names. A host
map that is looked up by name cannot hold one name twice. The map of a bulk create on
an empty cluster is taken from the listing as it is, and holds a name twice exactly if
that listing shows it twice.
-/
namespace HostRoster

section AnyReply

variable {η : Type} {law : η → Exchange Remote → η → Prop} {cluster : String} {h : η}

theorem Execution.sublist_recordDeleted (e : Execution) (n : String) :
    (e.recordDeleted n).hosts.entries.Sublist e.hosts.entries := by
  rw [recordDeleted]
  cases (e.hosts.entries.find? fun x => x.2.name == some n).map (·.1) with
  | none => exact List.Sublist.refl _
  | some key => exact List.filter_sublist

/-- Deletes take entries out of the host map and leave the others as they are. -/
theorem ensures_runDeletes_sublist (names : List String) (e : Execution) :
    (runDeletes cluster names e).Ensures law h fun e' _ =>
      e'.hosts.entries.Sublist e.hosts.entries := by
  induction names generalizing e h with
  | nil => exact List.Sublist.refl _
  | cons n rest ih =>
    intro reply h' _
    cases reply with
    | error err => exact List.Sublist.refl _
    | ok _ =>
      exact (ih (e.recordDeleted n)).mono fun e' _ kept => kept.trans (e.sublist_recordDeleted n)

/-- An unguarded plan of deletes makes them. -/
theorem execute_deletes (cluster : String) (names : List String) (current : Nat) (hash : String)
    (hosts : HostMap) : (HostPlan.ofDiff { toDelete := names } current none hash).execute cluster
      hosts = runDeletes cluster names { hosts } := by
  have free : (HostPlan.ofDiff { toDelete := names } current none hash).ensureGuardrails = .ok () :=
    rfl
  rw [HostPlan.execute, free]
  dsimp only
  rw [HostPlan.creates_ofDiff, HostPlan.updates_ofDiff, HostPlan.deletes_ofDiff,
    KeyMap.ofList_entries]
  rfl

theorem ensures_execute_deletes (names : List String) (current : Nat) (hash : String)
    (hosts : HostMap) :
    ((HostPlan.ofDiff { toDelete := names } current none hash).execute cluster hosts).Ensures law h
      fun e _ => e.hosts.entries.Sublist hosts.entries := by
  rw [execute_deletes]
  exact ensures_runDeletes_sublist names { hosts }

/-- A map that is found again in a listing has distinct names. -/
theorem ensures_refresh_wellNamed (hosts : HostMap) :
    (Reconciler.refresh cluster hosts).run.Ensures law h fun result _ =>
      ∀ m, result = .ok m → WellNamed (m.values : Multiset HostRecord) := by
  rw [Reconciler.refresh, ensures_session_bind, ensures_listHosts]
  intro reply h' _
  cases reply with
  | error e => rintro m ⟨⟩
  | ok listed =>
    simp only [Except.mapError]
    split
    · rintro m ⟨rfl⟩
      exact (correlateByName_accounts hosts listed).wellNamed_matched
    · rintro m ⟨⟩

theorem ensures_carryThrough_wellNamed {r : Reconciler} {desired : Declaration} {prior : HostMap}
    {listed : List HostRecord} {p : Prepared} (prepares : r.Prepares desired prior listed p) :
    (Reconciler.carryThrough cluster p).run.Ensures law h fun result _ =>
      ∀ o, result = .ok o → WellNamed (o.hosts.values : Multiset HostRecord) := by
  rw [Reconciler.carryThrough]
  split
  next =>
    rintro o ⟨rfl⟩
    rw [prepares.correlation]
    exact (Reconciler.correlate_accounts desired prior listed).wellNamed_matched
  next =>
    refine ensures_session_bind.2 (ensures_lift.2 (.of_forall fun e h' => ?_))
    dsimp only
    split
    · rintro o ⟨⟩
    · refine ensures_session_bind.2 ((ensures_refresh_wellNamed e.hosts).mono fun result _ found => ?_)
      cases result with
      | error err => rintro o ⟨⟩
      | ok m =>
        rintro o ⟨rfl⟩
        exact found m rfl

end AnyReply

/-- The operations that give a host map. -/
inductive EntryPoint where
  | reconcile (prior : HostMap)
  | create
  | destroy (prior : HostMap)

namespace EntryPoint

def session (r : Reconciler) (cluster : String) (desired : Declaration) :
    EntryPoint → Session Outcome
  | reconcile prior => r.reconcile cluster desired prior
  | create => r.create cluster desired
  | destroy prior => r.destroy cluster prior

/-- The operation creates all hosts at once if the cluster lists none. -/
def StartsBare : EntryPoint → Prop
  | reconcile prior => prior = ∅
  | create => True
  | destroy _ => False

end EntryPoint

/-- The cluster listed no host, and the listing after the bulk create shows two of one name
among the hosts whose names that create gave. -/
def RepeatsCreated (cluster : String) (exchanges : List (Exchange Remote)) : Prop :=
  ∃ (specs : List HostSpec) (names : List String) (listed : List HostRecord),
    exchanges = [⟨.list cluster, Except.ok []⟩, ⟨.create cluster specs, Except.ok names⟩,
      ⟨.list cluster, Except.ok listed⟩] ∧
    ¬ ((hostsNamed names listed).map HostRecord.name).Nodup

section Traces

variable {r : Reconciler} {cluster : String} {desired : Declaration}

/-- The hosts of a bulk create are the listed ones of the names it gave. -/
theorem ensures_createHosts_values (creates : Declaration) (sofar : List (Exchange Remote)) :
    (createHosts cluster creates).run.Ensures Recorded sofar fun result now =>
      ∀ mapped, result = .ok mapped → (∀ host ∈ mapped.values, host.name.isSome) ∧
        ∃ (names : List String) (listed : List HostRecord),
          now = sofar ++ [⟨.create cluster creates.values, Except.ok names⟩,
            ⟨.list cluster, Except.ok listed⟩] ∧ mapped.values.Perm (hostsNamed names listed) := by
  rw [createHosts, ensures_session_bind, ensures_submitCreates]
  rintro reply _ rfl
  cases submission : submitted creates reply with
  | error e => rintro mapped ⟨⟩
  | ok names =>
    obtain rfl := submitted_eq_ok submission
    simp only [ensures_correlateSubmitted]
    rintro reply _ rfl
    cases reply with
    | error e => rintro mapped ⟨⟩
    | ok listed =>
      intro mapped done
      cases tied : correlateCreated (.ofDeclaration creates) (hostsNamed names listed) with
      | error e => simp [tied, Except.mapError] at done
      | ok m =>
        simp only [tied, Except.mapError, Except.ok.injEq] at done
        subst done
        have handed := correlateCreated_handed tied
        exact ⟨handed.named, names, listed, List.append_assoc .., handed.hosts⟩

/-- What the host map of a successful outcome is like, by the exchanges that led to it. -/
def NamedApart (cluster : String) (bare : Prop) (hosts : HostMap)
    (exchanges : List (Exchange Remote)) : Prop :=
  (∀ host ∈ hosts.values, host.name.isSome) ∧
    ((hosts.values.map HostRecord.name).Nodup ↔ ¬ (bare ∧ RepeatsCreated cluster exchanges))

theorem NamedApart.of_wellNamed {bare : Prop} {hosts : HostMap}
    {exchanges : List (Exchange Remote)} (wellNamed : WellNamed (hosts.values : Multiset HostRecord))
    (other : ¬ (bare ∧ RepeatsCreated cluster exchanges)) :
    NamedApart cluster bare hosts exchanges :=
  ⟨wellNamed.named, iff_of_true wellNamed.distinct other⟩

/-- On an empty cluster the outcome is taken from the listing after the create. -/
theorem ensures_createAll_names :
    (r.createAll cluster desired).run.Ensures Recorded
      [⟨.list cluster, (Except.ok [] : Except SyncError (List HostRecord))⟩] fun result now =>
      ∀ o, result = .ok o → NamedApart cluster True o.hosts now := by
  rw [Reconciler.createAll]
  dsimp only
  split
  next => rintro o ⟨⟩
  next =>
    split
    next =>
      rintro o ⟨rfl⟩
      refine .of_wellNamed ⟨by simp [KeyMap.values], by simp [KeyMap.values]⟩ ?_
      rintro ⟨-, specs, names, listed, eq, -⟩
      simp at eq
    next =>
      rw [ensures_session_bind]
      refine (ensures_createHosts_values desired _).mono fun result now made => ?_
      cases result with
      | error e => rintro o ⟨⟩
      | ok mapped =>
        rintro o ⟨rfl⟩
        obtain ⟨named, names, listed, rfl, hosts⟩ := made mapped rfl
        refine ⟨named, ?_⟩
        rw [(hosts.map HostRecord.name).nodup_iff]
        constructor
        · rintro distinct ⟨-, specs, names', listed', eq, repeated⟩
          cases eq
          exact repeated distinct
        · intro other
          by_contra repeated
          exact other ⟨trivial, _, names, listed, rfl, repeated⟩

theorem ensures_destroy_names (prior : HostMap) (sofar : List (Exchange Remote)) :
    (r.destroy cluster prior).run.Ensures Recorded sofar fun result now =>
      ∀ o, result = .ok o → NamedApart cluster False o.hosts now := by
  rw [Reconciler.destroy, ensures_session_bind, ensures_listHosts]
  rintro reply _ rfl
  cases reply with
  | error e => rintro o ⟨⟩
  | ok listed =>
    simp only [Except.mapError]
    split
    · rintro o ⟨⟩
    · refine ensures_session_bind.2 (ensures_lift.2
        ((ensures_execute_deletes _ _ _ _).mono fun e now kept => ?_))
      dsimp only
      split
      · rintro o ⟨⟩
      · rintro o ⟨rfl⟩
        refine .of_wellNamed ?_ fun claim => claim.1
        exact (correlateByName_accounts prior listed).wellNamed_matched.of_le
          (Multiset.coe_le.2 (kept.map Prod.snd).subperm)

theorem ensures_create_names :
    (r.create cluster desired).run.Ensures Recorded [] fun result now =>
      ∀ o, result = .ok o → NamedApart cluster True o.hosts now := by
  rw [Reconciler.create, ensures_session_bind, ensures_listHosts]
  rintro reply _ rfl
  cases reply with
  | error e => rintro o ⟨⟩
  | ok listed =>
    simp only [Except.mapError]
    split
    next empty =>
      obtain rfl := List.isEmpty_iff.1 empty
      exact ensures_createAll_names
    next => rintro o ⟨⟩

theorem ensures_reconcile_names (prior : HostMap) :
    (r.reconcile cluster desired prior).run.Ensures Recorded [] fun result now =>
      ∀ o, result = .ok o → NamedApart cluster (prior = ∅) o.hosts now := by
  rw [Reconciler.reconcile_eq, ensures_session_bind, ensures_listHosts]
  rintro reply _ rfl
  cases reply with
  | error e => rintro o ⟨⟩
  | ok listed =>
    simp only [Except.mapError, Reconciler.respond]
    split
    next bare =>
      obtain ⟨noPrior, noHost⟩ := Bool.and_eq_true_iff.1 bare
      obtain rfl := KeyMap.isEmpty_iff.1 noPrior
      obtain rfl := List.isEmpty_iff.1 noHost
      refine ensures_createAll_names.mono fun result now named o eq => ?_
      simpa only [NamedApart, true_and] using named o eq
    next known =>
      cases prepared : r.prepare desired prior listed with
      | error e => rintro o ⟨⟩
      | ok p =>
        have prepares := Reconciler.prepare_ok prepared
        refine ((ensures_carryThrough_wellNamed prepares).and
          (Program.ensures_recorded _ _)).mono fun result now found o eq => ?_
        refine .of_wellNamed (found.1 o eq) ?_
        rintro ⟨rfl, specs, names, listed', rfl, -⟩
        obtain ⟨first, -⟩ := List.cons_prefix_cons.1 found.2
        cases first
        exact known rfl

/-- Whatever the remote side replies, the hosts of an outcome have names, and these are distinct
unless the outcome comes from a bulk create on an empty cluster whose hosts were then listed with
a repeated name. -/
theorem outcome_names_distinct_iff {exchanges : List (Exchange Remote)} {o : Outcome}
    (op : EntryPoint) (run : (op.session r cluster desired).run.Follows exchanges (.done (.ok o))) :
    (∀ host ∈ o.hosts.values, host.name.isSome) ∧
      ((o.hosts.values.map HostRecord.name).Nodup ↔
        ¬ (op.StartsBare ∧ RepeatsCreated cluster exchanges)) := by
  have history := history_recorded exchanges []
  cases op with
  | reconcile prior => exact (ensures_reconcile_names prior).of_follows run history o rfl
  | create => exact ensures_create_names.of_follows run history o rfl
  | destroy prior => exact (ensures_destroy_names prior []).of_follows run history o rfl

end Traces

/-- Two keys of one class. -/
def twoKeys : Declaration := .ofList [("a", { zone := "z" }), ("b", { zone := "z" })]

def onlyHost : HostRecord := { zone := "z", assignedName := some "z-1.db.internal" }

/-- A create gives one name for two hosts, and the listing after it shows one host twice. -/
def oneHostTwice : List (Exchange Remote) :=
  [⟨.list "c", Except.ok []⟩,
    ⟨.create "c" twoKeys.values, Except.ok ["z-1.db.internal", "z-1.db.internal"]⟩,
    ⟨.list "c", Except.ok [onlyHost, onlyHost]⟩]

/-- The outcome that keeps the host under both keys. -/
def sharedHost : Outcome :=
  { clusterId := "c", phase := .stable, created := 2
    hosts := .ofList [("a", onlyHost), ("b", onlyHost)] }

theorem follows_oneHostTwice : (EntryPoint.create.session {} "c" twoKeys).run.Follows oneHostTwice
    (.done (.ok sharedHost)) :=
  .ask (.ask (.ask (.rest _)))

theorem outcome_names_distinct_iff_oneHostTwice :
    (EntryPoint.create.session {} "c" twoKeys).run.Follows oneHostTwice (.done (.ok sharedHost)) ∧
      (∀ host ∈ sharedHost.hosts.values, host.name.isSome) ∧
      ((sharedHost.hosts.values.map HostRecord.name).Nodup ↔
        ¬ (EntryPoint.create.StartsBare ∧ RepeatsCreated "c" oneHostTwice)) :=
  ⟨follows_oneHostTwice, outcome_names_distinct_iff .create follows_oneHostTwice⟩

/-- A successful outcome may give one host to two keys. -/
theorem not_names_always_distinct :
    ¬ ∀ (r : Reconciler) (cluster : String) (desired : Declaration) (op : EntryPoint)
      (exchanges : List (Exchange Remote)) (o : Outcome),
      (op.session r cluster desired).run.Follows exchanges (.done (.ok o)) →
        (∀ host ∈ o.hosts.values, host.name.isSome) ∧
          (o.hosts.values.map HostRecord.name).Nodup := by
  intro claim
  have distinct := (claim {} "c" twoKeys .create oneHostTwice sharedHost follows_oneHostTwice).2
  exact absurd distinct (by decide +kernel)

end HostRoster
