import HostRoster.Execution
import HostRoster.Proofs.Diff
import HostRoster.Proofs.Faithful

/-!
# Carrying out a plan on a faithful cluster

While a plan is carried out, the hosts of the cluster are those of the host map and
the orphans that are still to be deleted. Each call keeps this, so that the map and
the cluster agree when the last orphan is gone.
-/
namespace HostRoster

theorem HostMap.values_map (m : HostMap) (f : String → HostRecord → HostRecord) :
    (m.map f).values = m.entries.map fun e => f e.1 e.2 := by
  simp [KeyMap.values, Function.comp_def]

/-- The host of a key after the updates of a list that concern the key. -/
def HostRecord.afterUpdates (key : String) (updates : List HostUpdate) (r : HostRecord) :
    HostRecord :=
  updates.foldl (fun r u => if key = u.key then r.applyUpdate u else r) r

/-- What one update keeps of a host, a list of updates keeps. -/
theorem HostRecord.afterUpdates_kept {α : Type} (kept : HostRecord → α)
    (one : ∀ r u, kept (r.applyUpdate u) = kept r) (key : String) (updates : List HostUpdate)
    (r : HostRecord) : kept (r.afterUpdates key updates) = kept r := by
  induction updates generalizing r with
  | nil => rfl
  | cons u rest ih =>
    rw [afterUpdates, List.foldl_cons]
    refine (ih _).trans ?_
    split
    · exact one r u
    · rfl

@[simp] theorem HostRecord.name_afterUpdates (key : String) (updates : List HostUpdate)
    (r : HostRecord) : (r.afterUpdates key updates).name = r.name :=
  afterUpdates_kept (·.name) (fun _ _ => rfl) key updates r

@[simp] theorem HostRecord.zone_afterUpdates (key : String) (updates : List HostUpdate)
    (r : HostRecord) : (r.afterUpdates key updates).zone = r.zone :=
  afterUpdates_kept (·.zone) (fun _ _ => rfl) key updates r

@[simp] theorem HostRecord.subnetId_afterUpdates (key : String) (updates : List HostUpdate)
    (r : HostRecord) : (r.afterUpdates key updates).subnetId = r.subnetId :=
  afterUpdates_kept (·.subnetId) (fun _ _ => rfl) key updates r

/-- Updates of other keys leave a host alone. -/
theorem HostRecord.afterUpdates_of_ne {key : String} {updates : List HostUpdate}
    (others : ∀ u ∈ updates, key ≠ u.key) (r : HostRecord) : r.afterUpdates key updates = r := by
  induction updates with
  | nil => rfl
  | cons u rest ih =>
    rw [afterUpdates, List.foldl_cons, if_neg (others u (.head _))]
    exact ih fun v hv => others v (.tail _ hv)

/-- If all updates of a key ask for the same values, and there is one unless the host has these
values already, the host has them afterwards. -/
theorem HostRecord.afterUpdates_settled {key : String} {updates : List HostUpdate} {wanted : HostSpec}
    (agree : ∀ u ∈ updates, key = u.key → u.assignPublicIp = wanted.assignPublicIp ∧
      u.replicationSource = wanted.replicationSource)
    {r : HostRecord}
    (settled : (∀ u ∈ updates, key ≠ u.key) → r.assignPublicIp = wanted.assignPublicIp ∧
      r.replicationSource = wanted.replicationSource) :
    (r.afterUpdates key updates).assignPublicIp = wanted.assignPublicIp ∧
      (r.afterUpdates key updates).replicationSource = wanted.replicationSource := by
  induction updates generalizing r with
  | nil => exact settled (by simp)
  | cons u rest ih =>
    rw [afterUpdates, List.foldl_cons]
    refine ih (fun v hv => agree v (.tail _ hv)) fun others => ?_
    by_cases here : key = u.key
    · rw [if_pos here]
      exact agree u (.head _) here
    · rw [if_neg here]
      refine settled fun v hv => ?_
      rcases List.mem_cons.1 hv with rfl | hv
      · exact here
      · exact others v hv

/-- An update by name changes the host of the key it is meant for, and no other. -/
theorem map_updatedBy_eq {m : HostMap} {orphans : Multiset HostRecord} {u : HostUpdate}
    {r : HostRecord} (wellNamed : WellNamed (↑m.values + orphans)) (known : (u.key, r) ∈ m.entries)
    (name : r.name = some u.name) :
    (↑m.values + orphans).map (·.updatedBy u) =
      ↑(m.map fun key r => if key = u.key then r.applyUpdate u else r).values + orphans := by
  have mapped : WellNamed (m.values : Multiset HostRecord) :=
    wellNamed.of_le (Multiset.le_add_right _ _)
  have inMap : ∀ e ∈ m.entries, e.2.updatedBy u =
      if e.1 = u.key then e.2.applyUpdate u else e.2 := by
    intro e he
    rw [HostRecord.updatedBy]
    refine if_congr ⟨fun same => ?_, fun same => ?_⟩ rfl rfl
    · exact (Prod.mk.inj (mapped.eq_of_entries he known (same.trans name.symm))).1
    · have eq : e.2 = r := KeyMap.eq_of_mem (same ▸ he) known
      exact eq ▸ name
  have outside : ∀ o ∈ orphans, o.updatedBy u = o := by
    intro o ho
    refine if_neg fun same => ?_
    exact wellNamed.apart (Multiset.mem_coe.2 (KeyMap.mem_values_of_mem known)) ho
      (name.trans same.symm)
  rw [Multiset.map_add, Multiset.map_coe, Multiset.map_congr rfl outside, Multiset.map_id',
    HostMap.values_map, KeyMap.values, List.map_map]
  exact congrArg (fun l : List HostRecord => ↑l + orphans) (List.map_congr_left inMap)

section Calls

variable {η : Type} {law : η → Exchange Remote → η → Prop} {cluster : String} {h : η}

/-- The names a create call gave, if it gave one for each host. -/
def submitted (creates : Declaration) :
    Except SyncError (List String) → Except SyncError (List String)
  | .error e => .error (.remote .create (", ".intercalate creates.keys) e)
  | .ok names =>
    if names.length = creates.size then .ok names
    else .error (.reconcile (.countMismatch creates.size names.length))

theorem submitted_eq_ok {creates : Declaration} {reply : Except SyncError (List String)}
    {names : List String} (h : submitted creates reply = .ok names) : reply = .ok names := by
  cases reply with
  | error e => simp [submitted] at h
  | ok given =>
    rw [submitted] at h
    split at h
    · exact congrArg Except.ok (Except.ok.inj h)
    · simp at h

theorem ensures_submitCreates {creates : Declaration}
    {post : Except SyncError (List String) → η → Prop} :
    (submitCreates cluster creates).run.Ensures law h post ↔
      ∀ (reply : Except SyncError (List String)) h',
        law h ⟨.create cluster creates.values, reply⟩ h' → post (submitted creates reply) h' := by
  refine forall_congr' fun reply => forall_congr' fun h' => imp_congr_right fun _ => ?_
  cases reply with
  | error e => rfl
  | ok names =>
    change Program.Ensures law (if List.length (α := String) names = creates.size then
        .done (.ok names)
      else .done (.error (.reconcile (.countMismatch creates.size names.length)))) h' post ↔ _
    simp only [submitted]
    split <;> rfl

/-- The listed hosts of some names. -/
def hostsNamed (names : List String) (listed : List HostRecord) : List HostRecord :=
  listed.filter fun r => r.name.any names.contains

theorem ensures_correlateSubmitted {creates : Declaration} {names : List String}
    {post : Except SyncError HostMap → η → Prop} :
    (correlateSubmitted cluster creates names).run.Ensures law h post ↔
      ∀ (reply : Except SyncError (List HostRecord)) h', law h ⟨.list cluster, reply⟩ h' →
        post (match reply with
          | .error e => .error (.remote .list cluster e)
          | .ok listed =>
            (correlateCreated (.ofDeclaration creates) (hostsNamed names listed)).mapError .reconcile)
          h' := by
  rw [correlateSubmitted, ensures_session_bind, ensures_listHosts]
  refine forall_congr' fun reply => forall_congr' fun h' => imp_congr_right fun _ => ?_
  cases reply with
  | error e => rfl
  | ok listed =>
    simp only [Except.mapError, hostsNamed]
    cases correlateCreated (.ofDeclaration creates)
      (listed.filter fun r => r.name.any names.contains) <;> rfl

end Calls

variable {cluster : String}

/-- The hosts of a create call, each with the key it was asked for. -/
theorem exists_assignment {creates : Declaration} {fresh : List HostRecord}
    (realized : List.Forall₂ Realizes creates.values fresh) :
    ∃ other : Multiset Match, other.map Match.host = ↑fresh ∧
      other.map Match.slot = (Buckets.ofDeclaration creates).slots ∧
      ∀ m ∈ other, ∃ s ∈ creates.values, m.slot.1 = s.hostClass ∧ Realizes s m.host := by
  rw [Buckets.slots_ofDeclaration]
  rw [KeyMap.values] at realized ⊢
  generalize creates.entries = entries at realized ⊢
  induction entries generalizing fresh with
  | nil =>
    cases realized
    exact ⟨0, rfl, rfl, by simp⟩
  | cons e rest ih =>
    cases realized with
    | @cons _ r _ _ first others =>
      obtain ⟨other, hosts, slots, each⟩ := ih others
      refine ⟨⟨r, e.2.hostClass, e.1⟩ ::ₘ other, ?_, ?_, ?_⟩
      · rw [Multiset.map_cons, hosts, Multiset.cons_coe]
      · rw [Multiset.map_cons, slots, Multiset.cons_coe, List.map_cons]
      · intro m hm
        rcases Multiset.mem_cons.1 hm with rfl | hm
        · exact ⟨e.2, .head _, rfl, first⟩
        · obtain ⟨s, hs, same⟩ := each m hm
          exact ⟨s, .tail _ hs, same⟩

/-- The names a create call returned single out the hosts it created. -/
theorem hostsNamed_eq {hosts : Multiset HostRecord} {fresh listed : List HostRecord}
    {names : List String} (wellNamed : WellNamed (hosts + ↑fresh))
    (named : (names.map some).Perm (fresh.map HostRecord.name))
    (all : (listed : Multiset HostRecord) = hosts + ↑fresh) :
    (hostsNamed names listed).Perm fresh := by
  have mem_names : ∀ {r : HostRecord}, r.name.any names.contains = true ↔
      r.name ∈ fresh.map HostRecord.name := by
    intro r
    rw [← named.mem_iff, Option.any_eq_true]
    simp only [List.contains_iff_mem, List.mem_map]
    exact ⟨fun ⟨n, eq, hn⟩ => ⟨n, hn, eq.symm⟩, fun ⟨n, hn, eq⟩ => ⟨n, eq.symm, hn⟩⟩
  refine Multiset.coe_eq_coe.1 ?_
  have filtered : (hostsNamed names listed : Multiset HostRecord) =
      (listed : Multiset HostRecord).filter fun r => r.name.any names.contains = true := by
    simp [hostsNamed]
  rw [filtered, all, Multiset.filter_add, Multiset.filter_eq_nil.2, Multiset.filter_eq_self.2,
    Multiset.zero_add]
  · exact fun r hr => mem_names.2 (List.mem_map_of_mem hr)
  · intro r hr isNew
    obtain ⟨f, hf, same⟩ := List.mem_map.1 (mem_names.1 isNew)
    exact wellNamed.apart hr (Multiset.mem_coe.2 hf) same.symm

/-- The hosts of a declaration have been created and handed to its keys. -/
structure Supplied (creates : Declaration) (hosts hosts' : Multiset HostRecord)
    (mapped : HostMap) : Prop where
  keys : mapped.keys.Perm creates.keys
  added : hosts' = hosts + ↑mapped.values
  wellNamed : WellNamed hosts'
  suits : ∀ e ∈ mapped.entries, ∃ s, (e.1, s) ∈ creates.entries ∧ e.2.Suits s
  realizes : ∀ r ∈ mapped.values, ∃ s ∈ creates.values, Realizes s r

/-- A bulk create goes through, and every new host goes to a key it suits. -/
theorem ensures_createHosts {creates : Declaration} {hosts : Multiset HostRecord} :
    (createHosts cluster creates).run.Ensures (Serves cluster) hosts fun result hosts' =>
      ∃ mapped, result = .ok mapped ∧ Supplied creates hosts hosts' mapped := by
  rw [createHosts, ensures_session_bind, ensures_submitCreates]
  intro reply hosts' served
  obtain ⟨fresh, names, rfl, realized, named, rfl, wellNamed⟩ := served.of_create
  have count : names.length = creates.size := by
    have sizes := realized.length_eq
    have lengths := named.length_eq
    simp only [List.length_map, KeyMap.length_values] at sizes lengths
    omega
  simp only [submitted, count, if_true]
  rw [ensures_correlateSubmitted]
  intro reply hosts' served
  obtain ⟨listed, rfl, all, rfl⟩ := served.of_list
  have shown := hostsNamed_eq wellNamed named all
  obtain ⟨other, otherHosts, otherSlots, each⟩ := exists_assignment realized
  have fits : ∀ m ∈ other, m.Fits := fun m hm => by
    obtain ⟨s, -, cls, realizes⟩ := each m hm
    exact show m.host.hostClass.Fits m.slot.1 from cls ▸ realizes.suits
  obtain ⟨mapped, done⟩ := correlateCreated_of_assignment fits
    (otherHosts.trans (Multiset.coe_eq_coe.2 shown.symm)) otherSlots fun r hr =>
      wellNamed.named r (Multiset.mem_add.2 (.inr (shown.mem_iff.1 hr)))
  have handed := correlateCreated_handed done
  have values : mapped.values.Perm fresh := handed.hosts.trans shown
  refine ⟨mapped, by simp [done, Except.mapError],
    ⟨handed.keys, ?_, wellNamed, handed.suits, fun r hr => ?_⟩⟩
  · rw [Multiset.coe_eq_coe.2 values]
  · have isNew : r ∈ other.map Match.host := otherHosts ▸ Multiset.mem_coe.2 (values.mem_iff.1 hr)
    obtain ⟨m, hm, rfl⟩ := Multiset.mem_map.1 isNew
    obtain ⟨s, hs, -, realizes⟩ := each m hm
    exact ⟨s, hs, realizes⟩

/-- The creates of a plan go through, also if there are none. -/
theorem ensures_runCreates {creates : Declaration} {e : Execution} {hosts : Multiset HostRecord}
    (wellNamed : WellNamed hosts) :
    (runCreates cluster creates e).Ensures (Serves cluster) hosts fun e' hosts' =>
      ∃ mapped, e' = e.recordCreated mapped ∧ Supplied creates hosts hosts' mapped := by
  rw [runCreates]
  split
  next none =>
    obtain rfl := KeyMap.isEmpty_iff.1 none
    refine ⟨∅, ?_, ⟨.refl _, ?_, wellNamed, by simp, by simp [KeyMap.values]⟩⟩
    · simp [Execution.recordCreated]
    · simp [KeyMap.values]
  next =>
    rw [Program.ensures_bind]
    refine ensures_createHosts.mono ?_
    rintro _ hosts' ⟨mapped, rfl, supplied⟩
    exact ⟨mapped, rfl, supplied⟩

/-- Updates that address mapped hosts by their names all go through. -/
theorem ensures_runUpdates {updates : List HostUpdate} {e : Execution}
    {orphans : Multiset HostRecord} (going : e.failure = none)
    (wellNamed : WellNamed (↑e.hosts.values + orphans))
    (known : ∀ u ∈ updates, ∃ r, (u.key, r) ∈ e.hosts.entries ∧ r.name = some u.name) :
    (runUpdates cluster updates e).Ensures (Serves cluster) (↑e.hosts.values + orphans)
      fun e' hosts => e'.failure = none ∧
        e'.hosts = e.hosts.map (fun key r => r.afterUpdates key updates) ∧
        e'.completed = e.completed ++ updates.map .updated ∧
        hosts = ↑e'.hosts.values + orphans ∧ WellNamed hosts := by
  induction updates generalizing e with
  | nil =>
    refine ⟨going, KeyMap.ext ?_, by simp, rfl, wellNamed⟩
    simp [HostRecord.afterUpdates]
  | cons u rest ih =>
    obtain ⟨r, hr, name⟩ := known u (.head _)
    intro reply hosts' served
    have present : Present (↑e.hosts.values + orphans) u.name :=
      ⟨r, Multiset.mem_add.2 (.inl (KeyMap.mem_values_of_mem hr)), name⟩
    obtain ⟨rfl, rfl⟩ := served.of_update present
    have step := map_updatedBy_eq wellNamed hr name
    have named : WellNamed (↑(e.recordUpdated u).hosts.values + orphans) :=
      step ▸ wellNamed.map_updatedBy u
    rw [step]
    refine (ih (e := e.recordUpdated u) going named fun v hv => ?_).mono ?_
    · obtain ⟨s, hs, sname⟩ := known v (.tail _ hv)
      refine ⟨if v.key = u.key then s.applyUpdate u else s, ?_, ?_⟩
      · exact List.mem_map.2 ⟨_, hs, rfl⟩
      · split <;> exact sname
    · rintro e' hosts ⟨failure, mapped, completed, eq⟩
      refine ⟨failure, ?_, ?_, eq⟩
      · rw [mapped]
        refine KeyMap.ext ?_
        simp [Execution.recordUpdated, HostRecord.afterUpdates]
      · rw [completed]
        simp [Execution.recordUpdated]

/-- Deletes of hosts outside the map leave the map alone. -/
theorem ensures_runDeletes {orphans : List HostRecord} {e : Execution} (going : e.failure = none)
    (wellNamed : WellNamed (↑e.hosts.values + ↑orphans)) :
    (runDeletes cluster (orphans.filterMap HostRecord.name) e).Ensures (Serves cluster)
      (↑e.hosts.values + ↑orphans)
      fun e' hosts => e'.failure = none ∧ e'.hosts = e.hosts ∧
        e'.completed = e.completed ++
          (orphans.filterMap HostRecord.name).map (Completed.deleted · none) ∧
        hosts = ↑e.hosts.values := by
  induction orphans generalizing e with
  | nil => exact ⟨going, rfl, (List.append_nil _).symm, by simp⟩
  | cons o rest ih =>
    have here : o ∈ (↑e.hosts.values + ↑(o :: rest) : Multiset HostRecord) := by simp
    obtain ⟨n, name⟩ := Option.isSome_iff_exists.1 (wellNamed.named o here)
    rw [List.filterMap_cons_some name]
    intro reply hosts' served
    obtain ⟨rfl, rfl⟩ := served.of_delete ⟨o, here, name⟩
    have unmapped : ∀ r ∈ e.hosts.values, r.name ≠ some n := fun r hr same =>
      wellNamed.apart (Multiset.mem_coe.2 hr) (Multiset.mem_coe.2 (List.mem_cons_self ..))
        (same.trans name.symm)
    have wellNamedRest : WellNamed (o ::ₘ (↑e.hosts.values + ↑rest)) := by
      simpa [← Multiset.cons_coe] using wellNamed
    have others : ∀ r ∈ (↑e.hosts.values + ↑rest : Multiset HostRecord), r.name ≠ some n :=
      name ▸ (WellNamed.cons_iff.1 wellNamedRest).2.1
    have left : (↑e.hosts.values + ↑(o :: rest) : Multiset HostRecord).filter
        (fun r => r.name ≠ some n) = ↑e.hosts.values + ↑rest := by
      rw [← Multiset.cons_coe, Multiset.add_cons, Multiset.filter_cons_of_neg _ (by simp [name]),
        Multiset.filter_eq_self.2 others]
    have missing : (e.hosts.entries.find? fun h => h.2.name == some n) = none :=
      List.find?_eq_none.2 fun h hh => by simpa using unmapped _ (KeyMap.mem_values_of_mem hh)
    have recorded : e.recordDeleted n =
        { e with completed := e.completed ++ [Completed.deleted n none] } := by
      simp [Execution.recordDeleted, missing]
    change (runDeletes cluster (rest.filterMap HostRecord.name) (e.recordDeleted n)).Ensures
      (Serves cluster) _ _
    rw [left, recorded]
    refine (ih (e := { e with completed := e.completed ++ [Completed.deleted n none] }) going
      (wellNamedRest.of_le (Multiset.le_cons_self _ _))).mono ?_
    rintro e' hosts ⟨failure, same, completed, eq⟩
    exact ⟨failure, same, by simpa using completed, eq⟩

theorem HostPlan.ensureGuardrails_error {p : HostPlan} {e : PlanError}
    (h : p.ensureGuardrails = .error e) : ∃ broken, e = .guardrails broken := by
  rw [HostPlan.ensureGuardrails] at h
  split at h
  · simp at h
  · exact ⟨_, (Except.error.inj h).symm⟩

/-- The plan for a difference has been carried out to its end. -/
structure Carried (d : HostDiff) (matched : HostMap) (orphans : List HostRecord) (e : Execution)
    (hosts : Multiset HostRecord) : Prop where
  going : e.failure = none
  supplied : ∃ mapped mid, Supplied d.toCreate (↑matched.values + ↑orphans) mid mapped ∧
    e.hosts = (matched.insertAll mapped.entries).map fun key r => r.afterUpdates key d.toUpdate
  all : hosts = ↑e.hosts.values
  wellNamed : WellNamed hosts
  created : e.created = d.toCreate.size
  updated : e.updated = d.toUpdate.length
  deleted : e.deleted = orphans.length

/-- The calls of an execution that created these hosts, made these updates and deleted the hosts
of these names. -/
theorem Execution.counts {e : Execution} {made : HostMap} {updates : List HostUpdate}
    {names : List String} (calls : e.completed = made.entries.map (fun h => .created h.1 h.2) ++
      updates.map .updated ++ names.map (Completed.deleted · none)) :
    e.created = made.size ∧ e.updated = updates.length ∧ e.deleted = names.length := by
  refine ⟨?_, ?_, ?_⟩
  · simp [created, calls, List.countP_map, Function.comp_def, Completed.isCreated, KeyMap.size]
  · simp [updated, calls, List.countP_map, Function.comp_def, Completed.isUpdated]
  · simp [deleted, calls, List.countP_map, Function.comp_def, Completed.isDeleted]

/-- Unless it breaks a guardrail, the plan for a difference is carried out to its end. -/
theorem ensures_execute {d : HostDiff} {matched : HostMap} {orphans : List HostRecord}
    (wellNamed : WellNamed (↑matched.values + ↑orphans))
    (creates : ∀ key ∈ d.toCreate.keys, key ∉ matched.keys)
    (updates : ∀ u ∈ d.toUpdate, ∃ r, (u.key, r) ∈ matched.entries ∧ r.name = some u.name)
    (deletes : d.toDelete = orphans.filterMap HostRecord.name)
    (current : Nat) (guardrails : Option Guardrails) (hash : String) :
    ((HostPlan.ofDiff d current guardrails hash).execute cluster matched).Ensures (Serves cluster)
      (↑matched.values + ↑orphans) fun e hosts =>
        (∃ broken, e.failure = some (.plan (.guardrails broken)) ∧
          hosts = ↑matched.values + ↑orphans) ∨ Carried d matched orphans e hosts := by
  rw [HostPlan.execute]
  split
  next e refused =>
    obtain ⟨broken, rfl⟩ := HostPlan.ensureGuardrails_error refused
    exact .inl ⟨broken, rfl, rfl⟩
  next =>
    rw [Program.ensures_bind, HostPlan.creates_ofDiff, HostPlan.updates_ofDiff,
      HostPlan.deletes_ofDiff, KeyMap.ofList_entries, deletes]
    refine (ensures_runCreates wellNamed).mono ?_
    rintro _ mid ⟨mapped, rfl, supplied⟩
    have fresh : (mapped.keys ++ matched.keys).Nodup := by
      refine List.nodup_append.2 ⟨mapped.nodup_keys, matched.nodup_keys, fun a ha b hb => ?_⟩
      rintro rfl
      exact creates a (supplied.keys.mem_iff.1 ha) hb
    have entries := KeyMap.perm_insertAll (m := matched) (l := mapped.entries) fresh
    have values : (↑(matched.insertAll mapped.entries).values + ↑orphans : Multiset HostRecord) =
        mid := by
      rw [supplied.added, KeyMap.values, Multiset.coe_eq_coe.2 (entries.map Prod.snd),
        List.map_append, ← Multiset.coe_add, Multiset.add_assoc, Multiset.add_comm]
      rfl
    rw [← values] at supplied ⊢
    refine Program.ensures_bind.2 ((ensures_runUpdates rfl supplied.wellNamed ?_).mono ?_)
    · intro u hu
      obtain ⟨r, hr, name⟩ := updates u hu
      exact ⟨r, entries.mem_iff.2 (List.mem_append_right _ hr), name⟩
    · rintro e' hosts ⟨failure, mappedHosts, completed, rfl, distinct⟩
      have going : e'.failure.isSome = false := by rw [failure]; rfl
      rw [Execution.andThen, going]
      refine (ensures_runDeletes failure distinct).mono ?_
      rintro last hosts ⟨failure, same, deleted, rfl⟩
      obtain ⟨created, updated, removed⟩ := Execution.counts (deleted.trans (by rw [completed]; rfl))
      have size : mapped.size = d.toCreate.size := by
        simpa only [KeyMap.length_keys] using supplied.keys.length_eq
      have names : (orphans.filterMap HostRecord.name).length = orphans.length := by
        rw [List.filterMap_length_eq_length]
        exact fun r hr => wellNamed.named r (Multiset.mem_add.2 (.inr hr))
      exact .inr ⟨failure, ⟨mapped, _, supplied, same.trans mappedHosts⟩, by rw [same],
        distinct.of_le (Multiset.le_add_right _ _), created.trans size, updated,
        removed.trans names⟩

end HostRoster
