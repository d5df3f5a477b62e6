import HostRoster.Proofs.Bounds
import HostRoster.Proofs.Enactment
import HostRoster.Proofs.Idempotence
import HostRoster.Proofs.Protocols

/-!
# Capacity on the way

A run adds before it takes away. Until its create has succeeded it deletes nothing, and from
then on the hosts that are still to be deleted come on top of the declared number. So however
the calls turn out, a cluster that started with enough hosts has enough at every moment.
-/
namespace HostRoster

/-- How the hosts of a cluster may change with an exchange. Listings are accurate and new hosts
have names of their own. A call that fails may have been carried out or not, and a create that
fails may have come to any number of hosts. -/
inductive Unsteady (cluster : String) :
    Multiset HostRecord → Exchange Remote → Multiset HostRecord → Prop
  | list {hosts : Multiset HostRecord} {listed : List HostRecord}
      (all : (listed : Multiset HostRecord) = hosts) :
      Unsteady cluster hosts ⟨.list cluster, Except.ok listed⟩ hosts
  | refused {hosts : Multiset HostRecord} {e : Exchange Remote} (failure : e.IsFailure) :
      Unsteady cluster hosts e hosts
  | create {hosts : Multiset HostRecord} {specs : List HostSpec} {fresh : List HostRecord}
      {reply : Except SyncError (List String)}
      (supplied : ∀ names, reply = .ok names → fresh.length = specs.length)
      (distinct : WellNamed (hosts + ↑fresh)) :
      Unsteady cluster hosts ⟨.create cluster specs, reply⟩ (hosts + ↑fresh)
  | update {hosts : Multiset HostRecord} (u : HostUpdate) (reply : Except SyncError Unit) :
      Unsteady cluster hosts ⟨.update cluster u, reply⟩ (hosts.map (·.updatedBy u))
  | delete {hosts : Multiset HostRecord} (name : String) (reply : Except SyncError Unit) :
      Unsteady cluster hosts ⟨.delete cluster name, reply⟩
        (hosts.filter fun r => r.name ≠ some name)

/-- Whether a call takes a host away. -/
def Call.isDelete : Call → Bool
  | delete _ _ => true
  | _ => false

/-- The number of deletes among some calls. -/
def deletesIn (calls : List Call) : Nat := calls.countP Call.isDelete

section Counting

variable {cluster : String} {hosts hosts' : Multiset HostRecord}
  {exchanges : List (Exchange Remote)}

/-- A name is that of one host at most. -/
theorem WellNamed.card_filter_ne (named : WellNamed hosts) (n : String) :
    Multiset.card hosts ≤ Multiset.card (hosts.filter fun r => r.name ≠ some n) + 1 := by
  have once : (hosts.map HostRecord.name).count (some n) ≤ 1 :=
    Multiset.nodup_iff_count_le_one.1 named.distinct (some n)
  have parts := congrArg Multiset.card (Multiset.filter_add_not (fun r => r.name ≠ some n) hosts)
  rw [Multiset.card_add] at parts
  rw [Multiset.count_map] at once
  have same : (hosts.filter fun r => ¬ r.name ≠ some n) = hosts.filter fun r => some n = r.name :=
    Multiset.filter_congr fun r _ => by rw [not_not, eq_comm]
  rw [same] at parts
  omega

@[simp] theorem deletesIn_append (a b : List Call) :
    deletesIn (a ++ b) = deletesIn a + deletesIn b := List.countP_append

/-- An exchange takes away no host but by a delete, and then one at most. -/
theorem Unsteady.step {e : Exchange Remote} (moved : Unsteady cluster hosts e hosts')
    (named : WellNamed hosts) : WellNamed hosts' ∧
      Multiset.card hosts ≤ Multiset.card hosts' + deletesIn (mutations [e]) := by
  cases moved with
  | list => exact ⟨named, Nat.le_add_right _ _⟩
  | refused => exact ⟨named, Nat.le_add_right _ _⟩
  | create supplied distinct =>
    refine ⟨distinct, ?_⟩
    rw [Multiset.card_add]
    omega
  | update u =>
    refine ⟨named.map_updatedBy u, ?_⟩
    rw [Multiset.card_map]
    omega
  | delete n => exact ⟨named.of_le (Multiset.filter_le _ _), named.card_filter_ne n⟩

/-- Over any number of exchanges no more hosts are lost than deletes are made. -/
theorem card_le_of_history (history : History (Unsteady cluster) hosts exchanges hosts')
    (named : WellNamed hosts) : WellNamed hosts' ∧
      Multiset.card hosts ≤ Multiset.card hosts' + deletesIn (mutations exchanges) := by
  induction history with
  | rest => exact ⟨named, Nat.le_add_right _ _⟩
  | @move h mid last e rest first _ ih =>
    obtain ⟨named, step⟩ := first.step named
    obtain ⟨named, onward⟩ := ih named
    refine ⟨named, ?_⟩
    have parts := mutations_append [e] rest
    rw [List.singleton_append] at parts
    rw [parts, deletesIn_append]
    omega

/-- A create that succeeds brings as many hosts as were asked for. -/
theorem Unsteady.created {specs : List HostSpec} {names : List String}
    (moved : Unsteady cluster hosts ⟨.create cluster specs, Except.ok names⟩ hosts') :
    Multiset.card hosts' = Multiset.card hosts + specs.length := by
  cases moved with
  | refused failure =>
    obtain ⟨err, error⟩ := failure
    exact nomatch error
  | create supplied => rw [Multiset.card_add, Multiset.coe_card, supplied names rfl]

end Counting

section Runs

variable {r : Reconciler} {cluster : String} {desired : Declaration} {prior : HostMap}
  {listed : List HostRecord} {after : Multiset HostRecord} {made : List (Exchange Remote)}
  {now : Program Remote (Except SyncError Outcome)} {p : Prepared}

theorem deletesIn_updates (updates : List HostUpdate) :
    deletesIn (updates.map (.update cluster)) = 0 := by
  simp [deletesIn, List.countP_map, Function.comp_def, Call.isDelete]

theorem deletesIn_deletes (names : List String) :
    deletesIn (names.map (.delete cluster)) = names.length := by
  simp [deletesIn, List.countP_map, Function.comp_def, Call.isDelete]

/-- The changes of a plan after its create delete the hosts the plan deletes. -/
theorem deletesIn_settling {calls : List Call} (p : HostPlan)
    (made : calls <+: p.updates.map (.update cluster) ++ p.deletes.map (.delete cluster)) :
    deletesIn calls ≤ p.deletes.length := by
  have fewer : deletesIn calls ≤ deletesIn _ := made.sublist.countP_le
  rwa [deletesIn_append, deletesIn_updates, deletesIn_deletes, Nat.zero_add] at fewer

/-- Until the create of a plan has succeeded nothing is deleted. From then on the hosts that are
still to be deleted come on top of the declared number. -/
theorem respond_capacity (prepared : r.prepare desired prior listed = .ok p)
    (named : WellNamed (listed : Multiset HostRecord))
    (run : (r.respond cluster desired prior listed).run.Follows made now)
    (history : History (Unsteady cluster) ↑listed made after) :
    min listed.length desired.size ≤ Multiset.card after := by
  have counted := (Reconciler.prepare_ok prepared).count
  rw [named.nodup_names.dedup, named.length_names] at counted
  have enacts : Enacts Failing (p.plan.calls cluster) _ := enacts_respond prepared
  unfold HostPlan.calls at enacts
  rw [List.append_assoc] at enacts
  by_cases noCreate : p.plan.creates.isEmpty = true
  · rw [if_pos noCreate, List.nil_append] at enacts
    obtain ⟨-, lost⟩ := card_le_of_history history named
    have deleted := deletesIn_settling p.plan (enacts.mutations_initial run)
    rw [List.isEmpty_iff.1 noCreate, List.length_nil] at counted
    rw [Multiset.coe_card] at lost
    omega
  · rw [if_neg noCreate, List.singleton_append] at enacts
    rcases enacts.first_succeeded run with atMost | ⟨before, names, rest, rfl, quiet, others⟩
    · obtain ⟨-, lost⟩ := card_le_of_history history named
      have deleted : deletesIn (mutations made) ≤ 0 := atMost.sublist.countP_le
      rw [Multiset.coe_card] at lost
      omega
    · obtain ⟨mid, first, onward⟩ := History.append_iff.1 history
      obtain ⟨namedMid, kept⟩ := card_le_of_history first named
      have noDelete : deletesIn (mutations before) = 0 := by rw [quiet]; rfl
      rw [Multiset.coe_card] at kept
      cases onward with
      | move moved onward =>
        have more := moved.created
        obtain ⟨-, lost⟩ := card_le_of_history onward (moved.step namedMid).1
        have deleted := deletesIn_settling p.plan others
        rw [List.length_map] at more
        omega

theorem bound_le_of_passes (prepares : r.Prepares desired prior listed p)
    (named : WellNamed (listed : Multiset HostRecord)) (passes : p.plan.passesGuardrails = true)
    {g : Guardrails} {bound : Nat} (guarded : r.guardrails = some g)
    (least : g.minHosts = some bound) : bound ≤ desired.size := by
  have violations := prepares.violations_eq named
  rw [List.isEmpty_iff.1 passes, guarded, Option.elim_some] at violations
  exact (Guardrails.violations_eq_nil.1 violations.symm).2.1 bound least

/-- Hosts enough are left of those that were there before. -/
structure KeepsCapacity (r : Reconciler) (desired : Declaration)
    (before after : Multiset HostRecord) : Prop where
  /-- There are as many as there were or as are declared. -/
  declared : min (Multiset.card before) desired.size ≤ Multiset.card after
  /-- There are as many as a lower bound asks for, if there were. -/
  bound : ∀ g bound, r.guardrails = some g → g.minHosts = some bound →
    bound ≤ Multiset.card before → bound ≤ Multiset.card after

theorem KeepsCapacity.of_le {before : Multiset HostRecord}
    (kept : Multiset.card before ≤ Multiset.card after) : KeepsCapacity r desired before after :=
  ⟨(Nat.min_le_left _ _).trans kept, fun _ _ _ _ enough => enough.trans kept⟩

theorem respond_keepsCapacity (named : WellNamed (listed : Multiset HostRecord))
    (run : (r.respond cluster desired prior listed).run.Follows made now)
    (history : History (Unsteady cluster) ↑listed made after) :
    KeepsCapacity r desired ↑listed after := by
  obtain ⟨-, lost⟩ := card_le_of_history history named
  rcases conducts_respond r cluster desired prior listed with ⟨result, done⟩ | ⟨p, prepared, -⟩
  · rw [done] at run
    obtain ⟨rfl, -⟩ := Program.follows_done run
    exact .of_le lost
  · cases passes : p.plan.passesGuardrails with
    | true =>
      have capacity := respond_capacity prepared named run history
      refine ⟨capacity, fun g bound guarded least enough => ?_⟩
      have prepares := Reconciler.prepare_ok prepared
      have declared := bound_le_of_passes prepares named passes guarded least
      exact (Nat.le_min.2 ⟨enough, declared⟩).trans capacity
    | false =>
      have issued := (enacts_respond_refused prepared passes).mutations_initial run
      rw [List.prefix_nil.1 issued] at lost
      exact .of_le lost

/-- A listing leaves the cluster as it is. -/
theorem Unsteady.of_list {reply : Except SyncError (List HostRecord)} {hosts : Multiset HostRecord}
    (moved : Unsteady cluster hosts ⟨.list cluster, reply⟩ after) :
    after = hosts ∧ ∀ listed, reply = .ok listed → hosts = ↑listed := by
  cases moved with
  | list all =>
    refine ⟨rfl, fun listed same => ?_⟩
    rw [← all, Except.ok.inj same]
  | refused failure =>
    refine ⟨rfl, fun listed same => ?_⟩
    obtain ⟨err, error⟩ := failure
    exact nomatch same.symm.trans error

/-- At every moment of a run, wherever it stops, the cluster has kept its capacity. -/
theorem reconcile_keeps_capacity {hosts : Multiset HostRecord} {exchanges : List (Exchange Remote)}
    (named : WellNamed hosts) (run : (r.reconcile cluster desired prior).run.Follows exchanges now)
    (history : History (Unsteady cluster) hosts exchanges after) :
    KeepsCapacity r desired hosts after := by
  cases history with
  | rest => exact .of_le (Nat.le_refl _)
  | move moved others =>
    have asked := run
    rw [Reconciler.reconcile_eq, run_listHosts_bind] at asked
    obtain ⟨reply, rfl, -⟩ := Program.follows_cons asked
    obtain ⟨rfl, accurate⟩ := moved.of_list
    have responds := reconcile_follows_cons run
    cases reply with
    | error err =>
      obtain ⟨rfl, -⟩ := responds
      rw [others.eq_of_nil]
      exact .of_le (Nat.le_refl _)
    | ok listed =>
      obtain rfl := accurate listed rfl
      exact respond_keepsCapacity named responds others

end Runs

/-- Two hosts are asked for at least. -/
def atLeastTwo : Reconciler := { guardrails := some { minHosts := some 2 } }

/-- A run that replaces the stray host, and whose delete is carried out but not confirmed. -/
def deleteLost : List (Exchange Remote) :=
  [⟨.list "c", Except.ok [firstHost, strayHost]⟩,
    ⟨.create "c" [{ zone := "y" }], Except.ok ["h4"]⟩,
    ⟨.list "c", Except.ok [newHost, strayHost, firstHost]⟩,
    ⟨.delete "c" "h3", Except.error (.api (.operationTimeout "op" 1))⟩]

/-- The run fails, and two hosts are there. -/
theorem reconcile_keeps_capacity_deleteLost :
    WellNamed ([firstHost, strayHost] : Multiset HostRecord) ∧
      (∃ e, (atLeastTwo.reconcile "c" twoZones recordedTwo).run.Follows deleteLost
        (.done (.error e))) ∧
      History (Unsteady "c") ↑[firstHost, strayHost] deleteLost ↑[firstHost, newHost] ∧
      KeepsCapacity atLeastTwo twoZones ↑[firstHost, strayHost] ↑[firstHost, newHost] := by
  have named : WellNamed ([firstHost, strayHost] : Multiset HostRecord) :=
    ⟨by decide +kernel, by decide +kernel⟩
  have run : ∃ e, (atLeastTwo.reconcile "c" twoZones recordedTwo).run.Follows deleteLost
      (.done (.error e)) := ⟨_, .ask (.ask (.ask (.ask (.rest _))))⟩
  have distinct : WellNamed (↑[firstHost, strayHost] + ↑[newHost] : Multiset HostRecord) :=
    ⟨by decide +kernel, by decide +kernel⟩
  have relisted : ([newHost, strayHost, firstHost] : Multiset HostRecord) =
      ↑[firstHost, strayHost] + ↑[newHost] := by decide +kernel
  have history : History (Unsteady "c") ↑[firstHost, strayHost] deleteLost ↑[firstHost, newHost] :=
    .move (.list rfl) (.move (.create (fun _ _ => rfl) distinct) (.move (.list relisted)
      (.move (.delete "h3" _) (.rest _))))
  obtain ⟨e, stopped⟩ := run
  exact ⟨named, ⟨e, stopped⟩, history, reconcile_keeps_capacity named stopped history⟩

end HostRoster
