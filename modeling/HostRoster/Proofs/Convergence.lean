import HostRoster.Proofs.Execution
import HostRoster.Proofs.InMemory
import HostRoster.Proofs.Preparation

/-!
# A run reaches the declaration

On a faithful cluster a run is refused before it changes anything, because a guardrail
or the placement of a host stands against it, or it goes through. Then the hosts of
the cluster are those of the declared keys, each as it was declared.
-/
namespace HostRoster

/-- A guardrail or a changed placement stands against the run. -/
def SyncError.IsRefusal (e : SyncError) : Prop :=
  (∃ broken, e = .plan (.guardrails broken)) ∨
    ∃ key name field wanted found, e = .reconcile (.placementChanged key name field wanted found)

/-- The hosts before and after a run that reached its declaration. A host is as declared
except that a key whose host is new may have got one with another replication source. -/
structure Outcome.Reaches (o : Outcome) (desired : Declaration)
    (before after : Multiset HostRecord) : Prop where
  keys : o.hosts.keys = desired.keys
  hosts : after = ↑o.hosts.values
  placed : ∀ key s host, (key, s) ∈ desired.entries → (key, host) ∈ o.hosts.entries →
    host.zone = s.zone ∧ host.assignPublicIp = s.assignPublicIp ∧
      (s.subnetId = none ∨ host.subnetId = s.subnetId)
  settled : ∀ key s host, (key, s) ∈ desired.entries → (key, host) ∈ o.hosts.entries →
    host.name ∈ before.map HostRecord.name → host.replicationSource = s.replicationSource
  realized : ∀ host ∈ o.hosts.values, host.name ∉ before.map HostRecord.name →
    ∃ s ∈ desired.values, Realizes s host
  fresh : o.hosts.values.countP (fun host => host.name ∉ before.map HostRecord.name) = o.created
  sizes : o.created + o.updated + o.unchanged = desired.size
  count : Multiset.card before + o.created = desired.size + o.deleted

/-- A created host bears none of the names that were there before. -/
theorem Supplied.name_new {creates : Declaration} {hosts after : Multiset HostRecord}
    {mapped : HostMap} (h : Supplied creates hosts after mapped) {r : HostRecord}
    (hr : r ∈ mapped.values) : r.name ∉ hosts.map HostRecord.name := by
  intro known
  obtain ⟨other, ho, same⟩ := Multiset.mem_map.1 known
  exact (h.added ▸ h.wellNamed).apart ho (Multiset.mem_coe.2 hr) same

/-- The hosts of a bulk create on an empty cluster are as declared. -/
theorem Supplied.reaches {desired : Declaration} {after : Multiset HostRecord} {mapped : HostMap}
    (h : Supplied desired 0 after mapped) {o : Outcome} (hosts : o.hosts = mapped)
    (created : o.created = mapped.size) (updated : o.updated = 0) (deleted : o.deleted = 0)
    (unchanged : o.unchanged = 0) : o.Reaches desired 0 after := by
  have size : mapped.size = desired.size := by
    simpa only [KeyMap.length_keys] using h.keys.length_eq
  constructor
  · exact hosts ▸ KeyMap.keys_eq_of_perm h.keys
  · rw [h.added, Multiset.zero_add, hosts]
  · intro key s host hs hh
    obtain ⟨s', hs', suits⟩ := h.suits (key, host) (hosts ▸ hh)
    obtain rfl := KeyMap.eq_of_mem hs hs'
    exact HostSpec.fits_iff.1 suits
  · simp
  · exact fun host hh _ => h.realizes host (hosts ▸ hh)
  · rw [created, ← KeyMap.length_values, hosts]
    simp
  · omega
  · simp [created, deleted, size]

namespace Correlation.Accounts

variable {c : Correlation} {wanted : HostMap} {listed : List HostRecord}

/-- A listing of distinctly named hosts is split into matched hosts and orphans. -/
theorem hosts_eq (h : c.Accounts wanted listed) (wellNamed : WellNamed (listed : Multiset HostRecord)) :
    (↑c.matched.values + ↑c.orphans : Multiset HostRecord) = ↑listed := by
  have values : c.matched.values.Perm (c.pairs.map Prod.snd) := h.perm_matched.map Prod.snd
  rw [Multiset.coe_add, Multiset.coe_eq_coe]
  exact (values.append_right _).trans (h.records.trans (values_byName wellNamed))

end Correlation.Accounts

namespace Reconciler.Prepares

variable {r : Reconciler} {desired : Declaration} {prior : HostMap} {listed : List HostRecord}
  {p : Prepared}

/-- The matched host of a key is as declared once the updates are made. -/
theorem afterUpdates_eq (h : r.Prepares desired prior listed p) {key : String} {s : HostSpec}
    {host : HostRecord} (hs : (key, s) ∈ desired.entries)
    (hh : (key, host) ∈ (correlate desired prior listed).matched.entries) :
    (host.afterUpdates key p.diff.toUpdate).assignPublicIp = s.assignPublicIp ∧
      (host.afterUpdates key p.diff.toUpdate).replicationSource = s.replicationSource := by
  refine HostRecord.afterUpdates_settled ?_ ?_
  · rintro u hu rfl
    obtain ⟨s', -, hs', -, -, values⟩ := h.update_addressed hu
    obtain rfl := KeyMap.eq_of_mem hs hs'
    exact values
  · intro others
    have same : updateFor key (s.named (recordedName prior key)) host = none := by
      refine Option.eq_none_iff_forall_not_mem.2 fun u change => ?_
      obtain ⟨rfl, -⟩ := updateFor_eq_some change
      exact others u (h.mem_updates.2 ⟨s, host, hs, hh, change⟩) rfl
    obtain ⟨flag, source⟩ := updateFor_eq_none.1 same
    exact ⟨flag.symm, source.symm⟩

variable {e : Execution} {after : Multiset HostRecord}

/-- A host of the map after the run was created for its key or was there before. -/
theorem origin (h : r.Prepares desired prior listed p)
    (wellNamed : WellNamed (listed : Multiset HostRecord))
    (carried : Carried p.diff (correlate desired prior listed).matched
      (correlate desired prior listed).orphans e after)
    {key : String} {host : HostRecord} (hh : (key, host) ∈ e.hosts.entries) :
    (∃ s, (key, s) ∈ p.diff.toCreate.entries ∧ host.Suits s ∧
      (∃ other ∈ desired.values, Realizes other host) ∧
      host.name ∉ (listed : Multiset HostRecord).map HostRecord.name) ∨
    ∃ old, (key, old) ∈ (correlate desired prior listed).matched.entries ∧
      host = old.afterUpdates key p.diff.toUpdate := by
  have c := correlate_accounts desired prior listed
  obtain ⟨mapped, mid, supplied, eq⟩ := carried.supplied
  rw [eq, KeyMap.entries_map, List.mem_map] at hh
  obtain ⟨⟨k, old⟩, ho, pair⟩ := hh
  obtain ⟨rfl, rfl⟩ := Prod.mk.inj pair
  rcases KeyMap.mem_of_mem_insertAll ho with new | matched
  · obtain ⟨s, hs, suits⟩ := supplied.suits _ new
    have others : ∀ u ∈ p.diff.toUpdate, k ≠ u.key := by
      rintro u hu rfl
      obtain ⟨-, host, -, hh, -⟩ := h.update_addressed hu
      have pending := (h.mem_creates.1 hs).2
      have declared := c.matched_subset (KeyMap.mem_keys_of_mem hh)
      exact (c.not_mem_matched declared).2 pending (KeyMap.mem_keys_of_mem hh)
    simp only [HostRecord.afterUpdates_of_ne others]
    obtain ⟨other, ho, realizes⟩ := supplied.realizes _ (KeyMap.mem_values_of_mem new)
    obtain ⟨⟨key, other⟩, he, rfl⟩ := List.mem_map.1 ho
    exact .inl ⟨s, hs, suits, ⟨other, KeyMap.mem_values_of_mem (h.mem_creates.1 he).1, realizes⟩,
      c.hosts_eq wellNamed ▸ supplied.name_new (KeyMap.mem_values_of_mem new)⟩
  · exact .inr ⟨old, matched, rfl⟩

theorem perm_names (h : r.Prepares desired prior listed p)
    (carried : Carried p.diff (correlate desired prior listed).matched
      (correlate desired prior listed).orphans e after) :
    ∃ mapped mid, Supplied p.diff.toCreate (↑(correlate desired prior listed).matched.values +
        ↑(correlate desired prior listed).orphans) mid mapped ∧
      (e.hosts.entries.map fun x => (x.1, x.2.name)).Perm
        ((mapped.entries ++ (correlate desired prior listed).matched.entries).map
          fun x => (x.1, x.2.name)) := by
  have c := correlate_accounts desired prior listed
  obtain ⟨mapped, mid, supplied, eq⟩ := carried.supplied
  have apart : (mapped.keys ++ (correlate desired prior listed).matched.keys).Nodup := by
    refine List.nodup_append.2 ⟨mapped.nodup_keys, KeyMap.nodup_keys _, fun a ha b hb => ?_⟩
    rintro rfl
    have pending := h.perm_creates.mem_iff.1 (supplied.keys.mem_iff.1 ha)
    exact (c.not_mem_matched (c.matched_subset hb)).2 pending hb
  refine ⟨mapped, mid, supplied, ?_⟩
  have names : e.hosts.entries.map (fun x => (x.1, x.2.name)) =
      ((correlate desired prior listed).matched.insertAll mapped.entries).entries.map
        fun x => (x.1, x.2.name) := by
    simp [eq, Function.comp_def]
  rw [names]
  exact (KeyMap.perm_insertAll apart).map _

theorem perm_keys (h : r.Prepares desired prior listed p)
    (carried : Carried p.diff (correlate desired prior listed).matched
      (correlate desired prior listed).orphans e after) : e.hosts.keys.Perm desired.keys := by
  have c := correlate_accounts desired prior listed
  obtain ⟨mapped, mid, supplied, names⟩ := h.perm_names carried
  have all := names.map Prod.fst
  rw [List.map_map, List.map_map, List.map_append] at all
  have declared := c.keys
  rw [keys_mergePriorNames] at declared
  have parts := (supplied.keys.trans h.perm_creates).append (c.perm_matched.map Prod.fst)
  exact all.trans (parts.trans (List.perm_append_comm.trans declared))

/-- A matched host was there before the run. -/
theorem name_listed (wellNamed : WellNamed (listed : Multiset HostRecord))
    {x : String × HostRecord} (hx : x ∈ (correlate desired prior listed).matched.entries) :
    x.2.name ∈ (listed : Multiset HostRecord).map HostRecord.name := by
  have split := (correlate_accounts desired prior listed).hosts_eq wellNamed
  exact Multiset.mem_map_of_mem _ (split ▸ Multiset.mem_add.2 (.inl (KeyMap.mem_values_of_mem hx)))

/-- The new hosts of the map are those that were created. -/
theorem countP_new (h : r.Prepares desired prior listed p)
    (wellNamed : WellNamed (listed : Multiset HostRecord))
    (carried : Carried p.diff (correlate desired prior listed).matched
      (correlate desired prior listed).orphans e after) :
    e.hosts.values.countP
        (fun host => host.name ∉ (listed : Multiset HostRecord).map HostRecord.name) = e.created := by
  have split := (correlate_accounts desired prior listed).hosts_eq wellNamed
  obtain ⟨mapped, mid, supplied, names⟩ := h.perm_names carried
  let isNew : String × Option String → Bool := fun x =>
    x.2 ∉ (listed : Multiset HostRecord).map HostRecord.name
  have count := names.countP_eq isNew
  have newOnes : mapped.entries.countP (isNew ∘ fun x => (x.1, x.2.name)) = mapped.entries.length :=
    List.countP_eq_length.2 fun x hx => decide_eq_true
      (split ▸ supplied.name_new (KeyMap.mem_values_of_mem hx))
  have oldOnes : (correlate desired prior listed).matched.entries.countP
      (isNew ∘ fun x => (x.1, x.2.name)) = 0 :=
    List.countP_eq_zero.2 fun x hx => by simpa [isNew] using name_listed wellNamed hx
  have size : mapped.size = p.diff.toCreate.size := by
    simpa only [KeyMap.length_keys] using supplied.keys.length_eq
  rw [List.countP_map, List.countP_map, List.countP_append, newOnes, oldOnes] at count
  rw [carried.created, ← size, KeyMap.values, List.countP_map]
  exact count

/-- A plan that is carried out to its end brings the hosts to their declaration. -/
theorem reaches (h : r.Prepares desired prior listed p)
    (wellNamed : WellNamed (listed : Multiset HostRecord))
    (carried : Carried p.diff (correlate desired prior listed).matched
      (correlate desired prior listed).orphans e after)
    {o : Outcome} (hosts : o.hosts = e.hosts) (created : o.created = e.created)
    (updated : o.updated = e.updated) (deleted : o.deleted = e.deleted)
    (unchanged : o.unchanged = p.diff.unchanged.length) : o.Reaches desired ↑listed after := by
  have keys := h.perm_keys carried
  constructor
  · exact hosts ▸ KeyMap.keys_eq_of_perm keys
  · rw [carried.all, hosts]
  · intro key s host hs hh
    rcases h.origin wellNamed carried (hosts ▸ hh) with ⟨s', hs', suits, -, -⟩ | ⟨old, ho, rfl⟩
    · obtain rfl := KeyMap.eq_of_mem hs (h.mem_creates.1 hs').1
      exact HostSpec.fits_iff.1 suits
    · obtain ⟨zone, subnet⟩ := h.placed hs ho
      simpa [zone] using ⟨(h.afterUpdates_eq hs ho).1, subnet⟩
  · intro key s host hs hh old
    rcases h.origin wellNamed carried (hosts ▸ hh) with ⟨-, -, -, -, isNew⟩ | ⟨old, ho, rfl⟩
    · exact absurd old isNew
    · exact (h.afterUpdates_eq hs ho).2
  · intro host hh isNew
    obtain ⟨⟨key, host⟩, he, rfl⟩ := List.mem_map.1 hh
    rcases h.origin wellNamed carried (hosts ▸ he) with ⟨-, -, -, realized, -⟩ | ⟨old, ho, rfl⟩
    · exact realized
    · exact absurd (old.name_afterUpdates key _ ▸ name_listed wellNamed ho) isNew
  · rw [hosts, created]
    exact h.countP_new wellNamed carried
  · rw [created, updated, unchanged, carried.created, carried.updated, h.size_eq]
  · have c := correlate_accounts desired prior listed
    have total := congrArg Multiset.card (c.hosts_eq wellNamed)
    have declared := c.keys.length_eq
    have matched := c.perm_matched.length_eq
    have pending := h.perm_creates.length_eq
    simp only [keys_mergePriorNames, Multiset.card_add, Multiset.coe_card, KeyMap.length_values,
      KeyMap.length_keys, List.length_map, List.length_append] at total declared matched pending
    rw [created, carried.created, deleted, carried.deleted, Multiset.coe_card]
    simp only [KeyMap.size] at *
    omega

end Reconciler.Prepares

section Runs

variable {r : Reconciler} {cluster : String} {desired : Declaration} {prior : HostMap}
  {hosts : Multiset HostRecord}

/-- A session ends with a refusal that leaves the hosts alone, or reaches its declaration. -/
def Settled (desired : Declaration) (before : Multiset HostRecord) :
    Except SyncError Outcome → Multiset HostRecord → Prop
  | .error e, after => e.IsRefusal ∧ after = before
  | .ok o, after => WellNamed after ∧ o.Reaches desired before after

/-- On an empty cluster every declared host is created. -/
theorem ensures_createAll :
    (r.createAll cluster desired).run.Ensures (Serves cluster) 0 (Settled desired 0) := by
  rw [Reconciler.createAll]
  split
  next e refused =>
    obtain ⟨broken, rfl⟩ := HostPlan.ensureGuardrails_error refused
    exact ⟨.inl ⟨broken, rfl⟩, rfl⟩
  next =>
    split
    next none =>
      obtain rfl := KeyMap.isEmpty_iff.1 none
      have nothing : Supplied ∅ 0 0 ∅ :=
        ⟨.refl _, rfl, ⟨by simp, by simp⟩, by simp, by simp [KeyMap.values]⟩
      exact ⟨nothing.wellNamed, nothing.reaches rfl rfl rfl rfl rfl⟩
    next =>
      rw [ensures_session_bind]
      refine ensures_createHosts.mono ?_
      rintro _ after ⟨mapped, rfl, supplied⟩
      exact ⟨supplied.wellNamed, supplied.reaches rfl rfl rfl rfl rfl⟩

/-- Listing a cluster that holds the mapped hosts gives back the map. -/
theorem ensures_refresh {m : HostMap} (wellNamed : WellNamed (m.values : Multiset HostRecord)) :
    (Reconciler.refresh cluster m).run.Ensures (Serves cluster) ↑m.values fun result after =>
      result = .ok m ∧ after = ↑m.values := by
  rw [Reconciler.refresh, ensures_session_bind, ensures_listHosts]
  intro reply after served
  obtain ⟨listed, rfl, all, rfl⟩ := served.of_list
  obtain ⟨pending, matched, -⟩ := correlateByName_eq all wellNamed fun _ => rfl
  simp only [Except.mapError, pending, List.isEmpty_nil, if_true]
  exact ⟨congrArg Except.ok matched, rfl⟩

/-- A plan without actions is carried out by doing nothing. -/
theorem carried_of_isEmpty {d : HostDiff} {matched : HostMap} {orphans : List HostRecord}
    (wellNamed : WellNamed (↑matched.values + ↑orphans)) (creates : d.toCreate = ∅)
    (updates : d.toUpdate = []) (none_left : orphans = []) :
    Carried d matched orphans { hosts := matched } (↑matched.values + ↑orphans) := by
  subst none_left
  refine ⟨rfl, ⟨∅, _, ⟨?_, rfl, ?_, by simp, by simp [KeyMap.values]⟩, ?_⟩, by simp, wellNamed,
    ?_, ?_, rfl⟩
  · rw [creates]
    exact .refl _
  · simpa [KeyMap.values] using wellNamed
  · refine KeyMap.ext ?_
    simp [updates, HostRecord.afterUpdates]
  · rw [creates]
    rfl
  · rw [updates]
    rfl

/-- A preparation that is carried through brings the hosts to their declaration, unless a
guardrail stands against it. -/
theorem ensures_carryThrough {p : Prepared} {listed : List HostRecord}
    (h : r.Prepares desired prior listed p)
    (wellNamed : WellNamed (listed : Multiset HostRecord)) :
    (Reconciler.carryThrough cluster p).run.Ensures (Serves cluster) ↑listed
      (Settled desired ↑listed) := by
  have c := Reconciler.correlate_accounts desired prior listed
  have split := c.hosts_eq wellNamed
  simp only [Reconciler.carryThrough, h.correlation, h.plan]
  split
  next nothing =>
    obtain ⟨creates, updates, deletes⟩ := HostPlan.isEmpty_ofDiff .. |>.1 nothing
    have orphans : (Reconciler.correlate desired prior listed).orphans = [] := by
      refine List.eq_nil_iff_forall_not_mem.2 fun o ho => ?_
      have named := wellNamed.named o (split ▸ Multiset.mem_add.2 (.inr ho))
      have unnamed := List.filterMap_eq_nil_iff.1 (h.deletes.symm.trans deletes) o ho
      simp [unnamed] at named
    have carried := carried_of_isEmpty (split.symm ▸ wellNamed) creates updates orphans
    rw [split] at carried
    refine ⟨wellNamed, h.reaches wellNamed carried rfl rfl rfl rfl ?_⟩
    have keys := c.keys.length_eq
    have matched := c.perm_matched.length_eq
    have pending := h.perm_creates.length_eq
    have sizes := h.size_eq
    simp only [creates, updates, keys_mergePriorNames, List.length_append, List.length_map,
      KeyMap.length_keys, KeyMap.size, KeyMap.entries_empty, List.length_nil] at *
    omega
  next =>
    refine ensures_session_bind.2 (ensures_lift.2 ?_)
    rw [← split]
    refine (ensures_execute (split.symm ▸ wellNamed) ?_ ?_ h.deletes _ _ _).mono ?_
    · intro key hk
      have pending := h.perm_creates.mem_iff.1 hk
      have declared := c.keys.mem_iff.1 (List.mem_append_right _ pending)
      exact (c.not_mem_matched declared).2 pending
    · intro u hu
      obtain ⟨-, host, -, hh, name, -⟩ := h.update_addressed hu
      exact ⟨host, hh, name⟩
    · rintro e after (⟨broken, failure, rfl⟩ | carried)
      · simp only [failure]
        exact ⟨.inl ⟨broken, rfl⟩, rfl⟩
      · simp only [carried.going]
        rw [carried.all]
        refine ensures_session_bind.2 ((ensures_refresh (carried.all ▸ carried.wellNamed)).mono ?_)
        rintro _ _ ⟨rfl, rfl⟩
        rw [← carried.all]
        refine ⟨carried.wellNamed, ?_⟩
        rw [split]
        exact h.reaches wellNamed carried rfl rfl rfl rfl rfl

/-- A run on a faithful cluster is refused at once or reaches the declaration. -/
theorem ensures_reconcile (wellNamed : WellNamed hosts) :
    (r.reconcile cluster desired prior).run.Ensures (Serves cluster) hosts
      (Settled desired hosts) := by
  rw [Reconciler.reconcile_eq, ensures_session_bind, ensures_listHosts]
  intro reply hosts' served
  obtain ⟨listed, rfl, rfl, rfl⟩ := served.of_list
  simp only [Except.mapError, Reconciler.respond]
  split
  next bare =>
    obtain ⟨-, empty⟩ := Bool.and_eq_true_iff.1 bare
    obtain rfl := List.isEmpty_iff.1 empty
    exact ensures_createAll
  next =>
    cases prepared : r.prepare desired prior listed with
    | error e =>
      obtain ⟨key, name, field, wanted, found, rfl⟩ := Reconciler.prepare_error prepared
      exact ⟨.inr ⟨key, name, field, wanted, found, rfl⟩, rfl⟩
    | ok p => exact ensures_carryThrough (Reconciler.prepare_ok prepared) wellNamed

end Runs

/-- Against every faithful server and with any prior map, a run without a deadline either is
refused and changes nothing, or succeeds and reaches the declaration. -/
theorem reconcile_reaches_declaration {σ : Type} {server : Server Remote σ} {cluster : String}
    {hosts : σ → Multiset HostRecord} {valid : σ → Prop}
    (faithful : FaithfulOn cluster server hosts valid) {s : σ} (start : valid s)
    (r : Reconciler) (desired : Declaration) (prior : HostMap) (elapsed : Nat) :
    let run := server.run none (r.reconcile cluster desired prior).run elapsed s
    (∃ e, run.value = some (.error e) ∧ e.IsRefusal ∧ hosts run.state = hosts s) ∨
      ∃ o, run.value = some (.ok o) ∧ o.Reaches desired (hosts s) (hosts run.state) := by
  obtain ⟨result, exchanges, value, -, follows, history, -⟩ := Server.run_follows
    (fun s call h => ⟨faithful.kept s call h, faithful.serves s call h⟩)
    (r.reconcile cluster desired prior).run elapsed start
  have settled := (ensures_reconcile (faithful.wellNamed s start)).of_follows follows history
  cases result with
  | error e => exact .inl ⟨e, value, settled⟩
  | ok o => exact .inr ⟨o, value, settled.2⟩

/-- On two hosts in memory, a recorded one stays, one whose record is stale is created again and
the other host goes. -/
theorem reconcile_reaches_declaration_in_memory :
    let start := (Cluster.addHosts {} [{ zone := "z" }, { zone := "y" }] []).1
    let desired : Declaration := .ofList [("a", { zone := "z" }), ("b", { zone := "x" })]
    let prior : HostMap := .ofList [
      ("a", { zone := "z", assignedName := some "z-1.db.internal" }),
      ("b", { zone := "x", assignedName := some "gone" })]
    let run := Cluster.server.run none (({} : Reconciler).reconcile "c" desired prior).run 0 start
    start.Sound ∧ ∃ o, run.value = some (.ok o) ∧ o.Reaches desired ↑start.hosts ↑run.state.hosts := by
  intro start desired prior run
  have sound : start.Sound := by
    obtain ⟨-, -, -, -, -, -, sound⟩ :=
      (Cluster.sound_new .newestFirst ∅).addHosts [{ zone := "z" }, { zone := "y" }] []
    exact sound
  refine ⟨sound, ?_⟩
  rcases reconcile_reaches_declaration (Cluster.faithfulOn_server "c") sound {} desired prior 0
    with ⟨e, value, -⟩ | reached
  · have succeeded : run.value.map Except.isOk = some true := by decide +kernel
    have failed := congrArg (Option.map Except.isOk) value
    exact absurd (failed.symm.trans succeeded) (by simp [Except.isOk, Except.toBool])
  · exact reached

end HostRoster
