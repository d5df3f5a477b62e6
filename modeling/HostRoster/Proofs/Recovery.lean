import HostRoster.Proofs.Adoption
import HostRoster.Proofs.Calls
import HostRoster.Proofs.Execution
import HostRoster.Proofs.Redealing
import Mathlib

/-!
# Recovery from a run that failed

A run that stops after its bulk create leaves hosts behind that nothing records. The
next run starts from the same recorded names, so it deals the same keys once more, now
with the created hosts among those it may deal to. What the first run did after its
create does not matter: its updates keep the class of a host that no name is recorded
for, and its deletes only take hosts that no key was dealt.
-/
namespace HostRoster

/-- How a cluster behaves that carries out a bulk create by adding these hosts, and is not to be
relied on otherwise: it may not carry out an update or a delete, any reply may be a failure
and any later listing may be wrong. -/
inductive Falters (cluster : String) (fresh : List HostRecord) :
    Multiset HostRecord → Exchange Remote → Multiset HostRecord → Prop
  | unchanged {hosts : Multiset HostRecord} (e : Exchange Remote)
      (other : ∀ specs, e.request ≠ .create cluster specs) : Falters cluster fresh hosts e hosts
  | create {hosts : Multiset HostRecord} {specs : List HostSpec}
      (realized : List.Forall₂ Realizes specs fresh) (distinct : WellNamed (hosts + ↑fresh))
      (reply : Except SyncError (List String)) :
      Falters cluster fresh hosts ⟨.create cluster specs, reply⟩ (hosts + ↑fresh)
  | update {hosts : Multiset HostRecord} (u : HostUpdate) (reply : Except SyncError Unit) :
      Falters cluster fresh hosts ⟨.update cluster u, reply⟩ (hosts.map (·.updatedBy u))
  | delete {hosts : Multiset HostRecord} (name : String) (reply : Except SyncError Unit) :
      Falters cluster fresh hosts ⟨.delete cluster name, reply⟩
        (hosts.filter fun r => r.name ≠ some name)

/-- What a host is dealt by and found by again. -/
def HostRecord.tag (r : HostRecord) : Option String × HostClass := (r.name, r.hostClass)

/-- The hosts of a cluster after the create of a run that started from this listing. -/
structure Aftermath (desired : Declaration) (prior : HostMap) (listed fresh : List HostRecord)
    (now : Multiset HostRecord) : Prop where
  wellNamed : WellNamed now
  named : ∀ key ∈ desired.keys, ∀ n, recordedName prior key = some n →
    (some n ∈ now.map HostRecord.name ↔
      some n ∈ (listed + fresh : Multiset HostRecord).map HostRecord.name)
  unrecorded : ∃ left ≤ ((Reconciler.adoption desired prior listed).refused : Multiset HostRecord),
    (now.filter (Unrecorded prior)).map HostRecord.tag =
      (↑((Reconciler.adoption desired prior listed).served.map Match.host) +
        (fresh : Multiset HostRecord).filter (Unrecorded prior) + left).map HostRecord.tag

theorem unrecorded_updatedBy {prior : HostMap} {u : HostUpdate} {host : HostRecord} :
    Unrecorded prior (host.updatedBy u) ↔ Unrecorded prior host := by
  simp [Unrecorded]

section FirstRun

open Reconciler

variable {r : Reconciler} {desired : Declaration} {prior : HostMap} {listed fresh : List HostRecord}
  {now : Multiset HostRecord} {p : Prepared}

/-- A host that a key has by adoption shows the key's flag. -/
theorem flag_of_unrecorded {key : String} {s : HostSpec} {host : HostRecord}
    (declared : (key, s) ∈ desired.entries)
    (matched : (key, host) ∈ (correlate desired prior listed).matched.entries)
    (unrecorded : Unrecorded prior host) : host.assignPublicIp = s.assignPublicIp := by
  rw [(correlate_accounts desired prior listed).mem_matched, correlate,
    Correlation.pairs_adoptOrphans] at matched
  rcases List.mem_append.1 matched with byName | adopted
  · obtain ⟨n, recorded, name, -⟩ := name_of_mem_correlateNamed byName
    obtain ⟨known, hk, same⟩ := recordedName_eq_some.1 recorded
    rcases unrecorded _ hk with none | other
    · simp [none] at same
    · exact absurd (same.trans name.symm) other
  · obtain ⟨m, hm, entry⟩ := List.mem_map.1 adopted
    obtain ⟨rfl, rfl⟩ := Prod.mk.inj entry
    obtain ⟨fits, -, -, -, wanted, hw, -, slot⟩ := Correlation.mem_adoption hm
    obtain ⟨s', hs', rfl⟩ := mem_mergePriorNames.1 hw
    obtain rfl := KeyMap.eq_of_mem declared hs'
    rw [Match.Fits, slot] at fits
    exact (HostSpec.fits_iff.1 fits).2.1

/-- An update reaches no unrecorded host but one that a key took over, and keeps its class. -/
theorem tag_updatedBy (h : r.Prepares desired prior listed p)
    (wellNamed : WellNamed (listed + fresh : Multiset HostRecord)) {u : HostUpdate}
    (planned : u ∈ p.diff.toUpdate) {host : HostRecord} (unrecorded : Unrecorded prior host)
    (known : ∃ x ∈ (listed + fresh : Multiset HostRecord), x.tag = host.tag) :
    (host.updatedBy u).tag = host.tag := by
  have c := correlate_accounts desired prior listed
  obtain ⟨s, taken, declared, matched, name, flag, -⟩ := h.update_addressed planned
  rw [HostRecord.updatedBy]
  split
  next addressed =>
    have takenName : taken.name = host.name := name.trans addressed.symm
    have takenListed : taken ∈ listed :=
      c.mem_listed (List.mem_append_left _ (List.mem_map_of_mem (c.mem_matched.1 matched)))
    obtain ⟨x, hx, same⟩ := known
    obtain ⟨xName, xClass⟩ := Prod.mk.inj same
    obtain rfl := wellNamed.eq_of_name hx (Multiset.mem_add.2 (.inl takenListed))
      (xName.trans takenName.symm)
    have shown := flag_of_unrecorded declared matched fun e he => takenName ▸ unrecorded e he
    have flags : u.assignPublicIp = host.assignPublicIp :=
      (flag.trans shown.symm).trans (congrArg HostClass.assignPublicIp xClass)
    simp [HostRecord.tag, HostSpec.hostClass, HostRecord.applyUpdate, flags, HostRecord.name]
  next => rfl

/-- A run deletes listed hosts that no key has, by name or by adoption. -/
theorem deleted_apart (h : r.Prepares desired prior listed p) {n : String}
    (planned : n ∈ p.diff.toDelete) :
    (∃ host ∈ listed, host.name = some n) ∧
      (∀ m ∈ (adoption desired prior listed).served, m.host.name ≠ some n) ∧
      ∀ key ∈ desired.keys, recordedName prior key ≠ some n := by
  have c := correlate_accounts desired prior listed
  rw [h.deletes] at planned
  obtain ⟨host, orphan, name⟩ := List.mem_filterMap.1 planned
  refine ⟨⟨host, c.mem_listed (List.mem_append_right _ orphan), name⟩, fun m hm same => ?_,
    fun key declared => recordedName_ne_of_orphan (orphan_by_name orphan) declared name⟩
  have taken := List.mem_map_of_mem (f := Prod.snd) (c.mem_matched.1 (mem_matched_of_served hm))
  exact c.wellNamed.apart taken orphan (same.trans name.symm)

namespace Aftermath

/-- Directly after the create. -/
theorem start (wellNamed : WellNamed (listed + fresh : Multiset HostRecord)) :
    Aftermath desired prior listed fresh (listed + fresh) := by
  refine ⟨wellNamed, fun key _ n _ => Iff.rfl, ↑(adoption desired prior listed).refused, le_rfl, ?_⟩
  rw [Multiset.filter_add,
    adoption_hosts desired prior (wellNamed.of_le (Multiset.le_add_right _ _)), Multiset.add_assoc,
    Multiset.add_assoc, Multiset.add_comm (Multiset.filter _ _)]

/-- A host without a recorded name is as it was listed or created. -/
theorem known (a : Aftermath desired prior listed fresh now)
    (wellNamed : WellNamed (listed : Multiset HostRecord)) {host : HostRecord} (present : host ∈ now)
    (unrecorded : Unrecorded prior host) :
    ∃ x ∈ (listed + fresh : Multiset HostRecord), x.tag = host.tag := by
  obtain ⟨left, refused, tags⟩ := a.unrecorded
  have tag : host.tag ∈ (now.filter (Unrecorded prior)).map HostRecord.tag :=
    Multiset.mem_map_of_mem _ (Multiset.mem_filter.2 ⟨present, unrecorded⟩)
  rw [tags] at tag
  obtain ⟨x, hx, same⟩ := Multiset.mem_map.1 tag
  refine ⟨x, ?_, same⟩
  have dealt := adoption_hosts desired prior wellNamed
  have ofListing : ∀ y ∈ (↑((adoption desired prior listed).served.map Match.host) +
      ↑(adoption desired prior listed).refused : Multiset HostRecord),
      y ∈ (listed + fresh : Multiset HostRecord) := fun y hy =>
    Multiset.mem_add.2 (.inl (Multiset.mem_of_mem_filter (dealt ▸ hy)))
  rcases Multiset.mem_add.1 hx with hx | hx
  · rcases Multiset.mem_add.1 hx with hx | hx
    · exact ofListing x (Multiset.mem_add.2 (.inl hx))
    · exact Multiset.mem_add.2 (.inr (Multiset.mem_of_mem_filter hx))
  · exact ofListing x (Multiset.mem_add.2 (.inr (Multiset.mem_of_le refused hx)))

theorem update (a : Aftermath desired prior listed fresh now) (h : r.Prepares desired prior listed p)
    (wellNamed : WellNamed (listed + fresh : Multiset HostRecord)) {u : HostUpdate}
    (planned : u ∈ p.diff.toUpdate) :
    Aftermath desired prior listed fresh (now.map (·.updatedBy u)) := by
  obtain ⟨left, refused, tags⟩ := a.unrecorded
  refine ⟨a.wellNamed.map_updatedBy u, fun key declared n recorded => ?_, left, refused, ?_⟩
  · rw [← a.named key declared n recorded, Multiset.map_map]
    simp only [Function.comp_def, HostRecord.name_updatedBy]
  · rw [Multiset.filter_map, Multiset.map_map, ← tags]
    simp only [Function.comp_def, unrecorded_updatedBy]
    refine Multiset.map_congr rfl fun host hh => ?_
    obtain ⟨present, unrecorded⟩ := Multiset.mem_filter.1 hh
    exact tag_updatedBy h wellNamed planned unrecorded
      (a.known (wellNamed.of_le (Multiset.le_add_right _ _)) present unrecorded)

theorem delete (a : Aftermath desired prior listed fresh now) (h : r.Prepares desired prior listed p)
    (wellNamed : WellNamed (listed + fresh : Multiset HostRecord)) {n : String}
    (planned : n ∈ p.diff.toDelete) :
    Aftermath desired prior listed fresh (now.filter fun host => host.name ≠ some n) := by
  obtain ⟨⟨gone, hg, name⟩, served, recorded⟩ := deleted_apart h planned
  obtain ⟨left, refused, tags⟩ := a.unrecorded
  refine ⟨a.wellNamed.of_le (Multiset.filter_le _ _), fun key declared m same => ?_,
    left.filter fun host => host.name ≠ some n, (Multiset.filter_le _ _).trans refused, ?_⟩
  · rw [← a.named key declared m same, Multiset.mem_map, Multiset.mem_map]
    constructor
    · rintro ⟨host, hh, bears⟩
      exact ⟨host, Multiset.mem_of_mem_filter hh, bears⟩
    · rintro ⟨host, hh, bears⟩
      refine ⟨host, Multiset.mem_filter.2 ⟨hh, fun both => ?_⟩, bears⟩
      exact recorded key declared (same.trans (bears.symm.trans both))
  · have byTag : ∀ hosts : Multiset HostRecord,
        (hosts.filter fun host => host.name ≠ some n).map HostRecord.tag =
          (hosts.map HostRecord.tag).filter fun tag => tag.1 ≠ some n := fun hosts => by
      rw [Multiset.filter_map]
      rfl
    have keptServed : (↑((adoption desired prior listed).served.map Match.host) :
        Multiset HostRecord).filter (fun host => host.name ≠ some n) =
          ↑((adoption desired prior listed).served.map Match.host) := by
      refine Multiset.filter_eq_self.2 fun host hh => ?_
      obtain ⟨m, hm, rfl⟩ := List.mem_map.1 (Multiset.mem_coe.1 hh)
      exact served m hm
    have keptFresh : ((fresh : Multiset HostRecord).filter (Unrecorded prior)).filter
        (fun host => host.name ≠ some n) = (fresh : Multiset HostRecord).filter (Unrecorded prior) :=
      Multiset.filter_eq_self.2 fun host hh same =>
        wellNamed.apart (Multiset.mem_coe.2 hg) (Multiset.mem_of_mem_filter hh)
          (name.trans same.symm)
    rw [Multiset.filter_comm, byTag, tags, ← byTag, Multiset.filter_add, Multiset.filter_add,
      keptServed, keptFresh]

/-- What the run does after its create keeps the aftermath. -/
theorem step (h : r.Prepares desired prior listed p)
    (wellNamed : WellNamed (listed + fresh : Multiset HostRecord)) {cluster : String}
    {e : Exchange Remote} {next : Multiset HostRecord} (settling : p.diff.Settling cluster e.request)
    (moved : Falters cluster fresh now e next) (a : Aftermath desired prior listed fresh now) :
    Aftermath desired prior listed fresh next := by
  cases moved with
  | unchanged => exact a
  | create => exact settling.elim
  | update u => exact a.update h wellNamed settling.2
  | delete n => exact a.delete h wellNamed settling.2

end Aftermath

/-- The state in which a run leaves the cluster that has carried out its create. -/
theorem aftermath_of_follows {cluster : String} {exchanges : List (Exchange Remote)}
    {q : Program Remote (Except SyncError Outcome)} {after : Multiset HostRecord}
    (run : (r.respond cluster desired prior listed).run.Follows exchanges q)
    (history : History (Falters cluster fresh) ↑listed exchanges after)
    (created : ∃ e ∈ exchanges, ∃ specs, e.request = .create cluster specs) :
    ∃ p, r.Prepares desired prior listed p ∧
      List.Forall₂ Realizes p.diff.toCreate.values fresh ∧
      Aftermath desired prior listed fresh after := by
  obtain ⟨e, he, specs, request⟩ := created
  obtain ⟨p, reply, rest, prepared, -, rfl, settling, -⟩ := respond_creates run he request
  have preps := prepare_ok prepared
  cases history with
  | move first others =>
    cases first with
    | unchanged _ other => exact absurd rfl (other _)
    | create realized distinct =>
      refine ⟨p, preps, realized, ?_⟩
      exact others.invariant (Aftermath desired prior listed fresh)
        (fun _ _ _ ok moved a => a.step preps distinct ok moved) settling (.start distinct)

end FirstRun

section SecondRun

open Reconciler

variable {r : Reconciler} {desired : Declaration} {prior : HostMap}
  {listed fresh relisted : List HostRecord} {p : Prepared}

/-- The created hosts, each with the key it was made for. -/
theorem exists_made (h : r.Prepares desired prior listed p) (distinct : DistinctNames prior)
    (realized : List.Forall₂ Realizes p.diff.toCreate.values fresh) :
    ∃ made : Multiset Match, made.map Match.host = ↑fresh ∧ (∀ m ∈ made, m.Fits) ∧
      (made.filter fun m => recordedName prior m.slot.2 = none).map Match.slot =
        (adoption desired prior listed).rest.slots ∧
      (staleEntries desired prior ↑listed = [] →
        ∀ m ∈ made, recordedName prior m.slot.2 = none) := by
  obtain ⟨made, hosts, slots, each⟩ := exists_assignment realized
  refine ⟨made, hosts, fun m hm => ?_, ?_, fun none_stale m hm => ?_⟩
  · obtain ⟨s, -, cls, realizes⟩ := each m hm
    exact show m.host.hostClass.Fits m.slot.1 from cls ▸ realizes.suits
  · rw [← slots_to_create fun key s => h.mem_creates, ← slots, Multiset.filter_map]
    rfl
  · have slot : m.slot ∈ (Buckets.ofDeclaration p.diff.toCreate).slots :=
      slots ▸ Multiset.mem_map_of_mem _ hm
    obtain ⟨s, hs, -⟩ := mem_slots_ofDeclaration slot
    rw [← h.named_creates distinct, List.filter_eq_nil_iff] at none_stale
    simpa using none_stale _ hs

namespace Aftermath

/-- The classes that the next run deals to. -/
theorem eligible_classes (a : Aftermath desired prior listed fresh ↑relisted) :
    ∃ left ≤ ((adoption desired prior listed).refused : Multiset HostRecord).map (·.hostClass),
      (eligible (retiredNames desired prior) (correlateNamed desired prior relisted).offered :
          Multiset HostRecord).map (·.hostClass) =
        ↑((adoption desired prior listed).served.map Match.hostClass) +
          ((fresh : Multiset HostRecord).filter (Unrecorded prior)).map (·.hostClass) + left := by
  obtain ⟨left, refused, tags⟩ := a.unrecorded
  have classes := congrArg (Multiset.map Prod.snd) tags
  rw [Multiset.map_map, Multiset.map_map, Multiset.map_add, Multiset.map_add] at classes
  refine ⟨left.map (·.hostClass), Multiset.map_le_map refused, ?_⟩
  rw [Multiset.map_coe, List.map_map] at classes
  rw [eligible_eq a.wellNamed]
  exact classes

/-- The next run creates for each stale key, and for at most as many others as there are
created hosts with a name that was recorded before. -/
theorem creates_again (a : Aftermath desired prior listed fresh ↑relisted) {first : Reconciler}
    {before : Prepared} (hf : first.Prepares desired prior listed before)
    (realized : List.Forall₂ Realizes before.diff.toCreate.values fresh)
    (distinct : DistinctNames prior) (h : r.Prepares desired prior relisted p) :
    p.diff.toCreate.entries.filter (fun e => recordedName prior e.1 ≠ none) =
        staleEntries desired prior (listed + fresh) ∧
      (p.diff.toCreate.entries.filter fun e => recordedName prior e.1 = none).length ≤
        fresh.countP fun host => ¬ Unrecorded prior host := by
  constructor
  · rw [h.named_creates distinct, staleEntries, staleEntries]
    refine List.filter_congr fun e he => ?_
    rw [decide_eq_decide]
    exact exists_congr fun n => and_congr_right fun recorded =>
      not_congr (a.named e.1 (KeyMap.mem_keys_of_mem he) n recorded)
  · obtain ⟨made, hosts, fits, filled, -⟩ := exists_made hf distinct realized
    obtain ⟨left, -, classes⟩ := a.eligible_classes
    let own := made.filter fun m => recordedName prior m.slot.2 = none
    have kept : (own.filter fun m => Unrecorded prior m.host).map Match.hostClass ≤
        ((fresh : Multiset HostRecord).filter (Unrecorded prior)).map (·.hostClass) := by
      rw [← hosts, Multiset.filter_map, Multiset.map_map]
      exact Multiset.map_le_map (Multiset.filter_le_filter _ (Multiset.filter_le _ _))
    have lost : Multiset.card (own.filter fun m => ¬ Unrecorded prior m.host) ≤
        fresh.countP fun host => ¬ Unrecorded prior host := by
      rw [← Multiset.coe_countP, ← hosts, Multiset.countP_map]
      exact Multiset.card_le_card (Multiset.filter_le_filter _ (Multiset.filter_le _ _))
    have ownFits : ∀ m ∈ own, m.Fits := fun m hm => fits m (Multiset.mem_of_mem_filter hm)
    have again := (adoption_settles desired prior listed).size_rest_again
      (adoption_settles desired prior relisted)
      ((slots_open desired prior relisted).trans (slots_open desired prior listed).symm)
      ownFits filled (Multiset.filter_le (fun m => Unrecorded prior m.host) own) <| by
        rw [classes, Multiset.map_add, Multiset.map_coe]
        exact (Multiset.add_le_add_left kept).trans (Multiset.le_add_right _ _)
    have split := congrArg Multiset.card
      (Multiset.filter_add_not (fun m => Unrecorded prior m.host) own)
    rw [Multiset.card_add] at split
    rw [h.length_unnamed_creates]
    omega

/-- With no stale key and new names for the created hosts, the next run adopts all of them. -/
theorem adopted_again (a : Aftermath desired prior listed fresh ↑relisted) {first : Reconciler}
    {before : Prepared} (hf : first.Prepares desired prior listed before)
    (realized : List.Forall₂ Realizes before.diff.toCreate.values fresh)
    (distinct : DistinctNames prior) (none_stale : staleEntries desired prior ↑listed = [])
    (new : ∀ host ∈ fresh, Unrecorded prior host) {host : HostRecord} (created : host ∈ fresh) :
    ∃ key ∈ (correlate desired prior relisted).adopted, ∃ found, found.name = host.name ∧
      (key, found) ∈ (correlate desired prior relisted).matched.entries := by
  obtain ⟨made, hosts, fits, filled, unnamed⟩ := exists_made hf distinct realized
  rw [Multiset.filter_eq_self.2 (unnamed none_stale)] at filled
  obtain ⟨left, refused, classes⟩ := a.eligible_classes
  obtain ⟨_, -, tags⟩ := a.unrecorded
  have allNew : (fresh : Multiset HostRecord).filter (Unrecorded prior) = ↑fresh :=
    Multiset.filter_eq_self.2 new
  rw [allNew] at classes tags
  have tag : host.tag ∈ ((relisted : Multiset HostRecord).filter (Unrecorded prior)).map
      HostRecord.tag :=
    tags ▸ Multiset.mem_map_of_mem _ (Multiset.mem_add.2 (.inl (Multiset.mem_add.2 (.inr created))))
  obtain ⟨found, hfound, same⟩ := Multiset.mem_map.1 tag
  obtain ⟨name, cls⟩ := Prod.mk.inj same
  rw [adoption_hosts desired prior a.wellNamed] at hfound
  rcases Multiset.mem_add.1 hfound with served | left_over
  · obtain ⟨m, hm, rfl⟩ := List.mem_map.1 (Multiset.mem_coe.1 served)
    exact ⟨m.slot.2, mem_adopted.2 (List.mem_map_of_mem hm), m.host, name,
      mem_matched_of_served hm⟩
  · refine absurd ?_ ((adoption_settles desired prior listed).made_served
      (adoption_settles desired prior relisted)
      ((slots_open desired prior relisted).trans (slots_open desired prior listed).symm)
      fits filled refused ?_ left_over)
    · rw [cls]
      have isMade : host ∈ made.map Match.host := hosts ▸ Multiset.mem_coe.2 created
      obtain ⟨m, hm, rfl⟩ := Multiset.mem_map.1 isMade
      exact Multiset.mem_map_of_mem _ hm
    · rw [classes, ← hosts, Multiset.map_add, Multiset.map_map, Multiset.map_coe]
      rfl

end Aftermath

/-- A run reports the keys that took over hosts. -/
theorem ensures_carryThrough_adopted (cluster : String) (p : Prepared)
    (sofar : List (Exchange Remote)) :
    (carryThrough cluster p).run.Ensures Recorded sofar fun result _ =>
      ∀ o, result = .ok o → o.adopted = p.correlation.adopted := by
  rw [carryThrough]
  split
  · rintro o ⟨rfl⟩
    rfl
  · refine ensures_session_bind.2 (ensures_lift.2 (.of_forall fun execution _ => ?_))
    dsimp only
    split
    · rintro o ⟨⟩
    · refine ensures_session_bind.2 (.of_forall fun result _ => ?_)
      cases result with
      | error e => rintro o ⟨⟩
      | ok hosts =>
        rintro o ⟨rfl⟩
        rfl

theorem adopted_eq {cluster : String} {exchanges : List (Exchange Remote)} {o : Outcome}
    (some : listed ≠ [])
    (run : (r.respond cluster desired prior listed).run.Follows exchanges (.done (.ok o))) :
    o.adopted = (correlate desired prior listed).adopted := by
  have bare : ¬ (prior.isEmpty && listed.isEmpty) = true := by simp [some]
  rw [respond, if_neg bare] at run
  cases prepared : r.prepare desired prior listed with
  | error e =>
    rw [prepared] at run
    cases (Program.follows_done run).2
  | ok p =>
    rw [prepared] at run
    have adopted := (ensures_carryThrough_adopted cluster p []).of_follows run
      (history_recorded exchanges []) o rfl
    rw [adopted, (prepare_ok prepared).correlation]

end SecondRun

/-- What may be created again after a run that created these hosts. -/
structure CreatesAgain (desired : Declaration) (prior : HostMap) (listed fresh : List HostRecord)
    (d : Declaration) : Prop where
  some : d ≠ ∅
  declared : ∀ e ∈ d.entries, e ∈ desired.entries
  named : d.entries.filter (fun e => recordedName prior e.1 ≠ none) =
    staleEntries desired prior (listed + fresh)
  unnamed : (d.entries.filter fun e => recordedName prior e.1 = none).length ≤
    fresh.countP fun host => ¬ Unrecorded prior host

/-- Nothing is created again but for a recorded host that is gone or a recorded name that
was given once more. -/
theorem CreatesAgain.cause {desired : Declaration} {prior : HostMap} {listed fresh : List HostRecord}
    {d : Declaration} (h : CreatesAgain desired prior listed fresh d) :
    staleEntries desired prior ↑listed ≠ [] ∨ ∃ host ∈ fresh, ¬ Unrecorded prior host := by
  by_contra! neither
  obtain ⟨none_stale, new⟩ := neither
  have named := h.named
  have gone := staleEntries_add_sublist desired prior ↑listed ↑fresh
  rw [none_stale, List.sublist_nil] at gone
  rw [gone, List.filter_eq_nil_iff] at named
  have unnamed := h.unnamed
  rw [List.countP_eq_zero.2 (by simpa using new), Nat.le_zero, List.length_eq_zero_iff,
    List.filter_eq_nil_iff] at unnamed
  refine h.some (KeyMap.ext (List.eq_nil_iff_forall_not_mem.2 fun e he => ?_))
  have noName : recordedName prior e.1 = none := by simpa using named e he
  simpa [noName] using unnamed e he

section Recovery

variable {r again : Reconciler} {cluster : String} {desired : Declaration} {prior : HostMap}
  {listed fresh : List HostRecord} {after : Multiset HostRecord}
  {first second : List (Exchange Remote)} {q q' : Program Remote (Except SyncError Outcome)}
  {reply : Except SyncError (List HostRecord)}

/-- Wherever a run stops after its bulk create, the next run on the same names creates the keys
whose recorded host is gone, and others only if created hosts were given recorded names. If
neither is the case it creates none, and keys take over all the hosts that were created. -/
theorem rerun_after_create (distinct : DistinctNames prior)
    (run : (r.reconcile cluster desired prior).run.Follows
      (⟨.list cluster, Except.ok listed⟩ :: first) q)
    (history : History (Falters cluster fresh) ↑listed first after)
    (created : ∃ e ∈ first, ∃ specs, e.request = .create cluster specs)
    (rerun : (again.reconcile cluster desired prior).run.Follows (⟨.list cluster, reply⟩ :: second) q')
    (truthful : ∀ relisted, reply = .ok relisted → ↑relisted = after) :
    (∀ e ∈ second, ∀ id specs, e.request = .create id specs → id = cluster ∧
      ∃ d : Declaration, specs = d.values ∧ CreatesAgain desired prior listed fresh d) ∧
    (staleEntries desired prior ↑listed = [] → (∀ host ∈ fresh, Unrecorded prior host) →
      (∀ e ∈ second, ∀ id specs, e.request ≠ .create id specs) ∧
      ∀ relisted, reply = .ok relisted → ∀ host ∈ fresh, ∃ key ∈ desired.keys,
        recordedName prior key = none ∧ ∃ found ∈ relisted, found.name = host.name ∧
        (key, found) ∈ (Reconciler.correlate desired prior relisted).matched.entries ∧
        ∀ o, q' = .done (.ok o) → key ∈ o.adopted) := by
  obtain ⟨before, prepares, realized, aftermath⟩ :=
    aftermath_of_follows (reconcile_follows_cons run) history created
  have responded := reconcile_follows_cons rerun
  have creates : ∀ e ∈ second, ∀ id specs, e.request = .create id specs → id = cluster ∧
      ∃ d : Declaration, specs = d.values ∧ CreatesAgain desired prior listed fresh d := by
    intro e he id specs request
    cases reply with
    | error err => simp [responded.1] at he
    | ok relisted =>
      obtain ⟨p, -, -, prepared, some, -, -, same, values⟩ := respond_creates responded he request
      have preps := Reconciler.prepare_ok prepared
      obtain rfl := truthful relisted rfl
      obtain ⟨named, unnamed⟩ := aftermath.creates_again prepares realized distinct preps
      exact ⟨same, p.diff.toCreate, values, some, fun x hx => (preps.mem_creates.1 hx).1, named,
        unnamed⟩
  refine ⟨creates, fun none_stale new => ⟨fun e he id specs request => ?_, ?_⟩⟩
  · obtain ⟨-, d, -, known⟩ := creates e he id specs request
    rcases known.cause with stale | ⟨host, hh, named⟩
    · exact stale none_stale
    · exact named (new host hh)
  · rintro relisted rfl host hh
    obtain rfl := truthful relisted rfl
    obtain ⟨key, adopted, found, name, matched⟩ :=
      aftermath.adopted_again prepares realized distinct none_stale new hh
    obtain ⟨declared, unnamed⟩ := Reconciler.unnamed_of_adopted adopted
    have c := Reconciler.correlate_accounts desired prior relisted
    have present : found ∈ relisted :=
      c.mem_listed (List.mem_append_left _ (List.mem_map_of_mem (c.mem_matched.1 matched)))
    refine ⟨key, declared, unnamed, found, present, name, matched, fun o stopped => ?_⟩
    subst stopped
    rw [adopted_eq (List.ne_nil_of_mem present) responded]
    exact adopted

end Recovery

/-- One key that leaves the subnet open. -/
def oneKey : Declaration := .ofList [("a", { zone := "z" })]

def madeHost : HostRecord :=
  { zone := "z", subnetId := some "sn", assignedName := some "z-1.db.internal" }

/-- The failure that hides the answer of a create. -/
def lostAnswer : SyncError := .api (.rateLimited 3)

/-- The create of one host, with its answer lost. -/
def createLost : List (Exchange Remote) := [⟨.create "c" oneKey.values, Except.error lostAnswer⟩]

def adoptsMade : Outcome :=
  { clusterId := "c", phase := .stable, hosts := .ofList [("a", madeHost)], unchanged := 1
    adopted := ["a"] }

theorem history_createLost : History (Falters "c" [madeHost]) ↑([] : List HostRecord) createLost
    ↑[madeHost] := by
  have realized : List.Forall₂ Realizes oneKey.values [madeHost] :=
    .cons ⟨rfl, .inl rfl, rfl, rfl⟩ .nil
  have distinct : WellNamed ↑[madeHost] := ⟨by simp [madeHost, HostRecord.name], by simp⟩
  exact .move (.create realized distinct _) (.rest _)

theorem follows_adoptsMade : (({} : Reconciler).reconcile "c" oneKey ∅).run.Follows
    [⟨.list "c", Except.ok [madeHost]⟩] (.done (.ok adoptsMade)) := by
  have adopts : (({} : Reconciler).respond "c" oneKey ∅ [madeHost]).run =
      .done (.ok adoptsMade) := by
    cbv
  rw [Reconciler.reconcile_eq, run_listHosts_bind, ← adopts]
  exact .ask (.rest _)

/-- The host whose answer was lost is there, and the next run takes it over. -/
theorem rerun_after_createLost :
    DistinctNames (∅ : HostMap) ∧ staleEntries oneKey ∅ ↑([] : List HostRecord) = [] ∧
      Unrecorded ∅ madeHost ∧ ∃ key ∈ oneKey.keys, ∃ found ∈ [madeHost],
        found.name = madeHost.name ∧ key ∈ adoptsMade.adopted := by
  have distinct : DistinctNames (∅ : HostMap) := by decide +kernel
  have none_stale : staleEntries oneKey ∅ ↑([] : List HostRecord) = [] := by decide +kernel
  have new : ∀ host ∈ [madeHost], Unrecorded ∅ host := by decide +kernel
  have run : (({} : Reconciler).reconcile "c" oneKey ∅).run.Follows
      (⟨.list "c", Except.ok []⟩ :: createLost) (.done (.error (.remote .create "a" lostAnswer))) :=
    .ask (.ask (.rest _))
  have recovered := (rerun_after_create distinct run history_createLost ⟨_, .head _, _, rfl⟩
    follows_adoptsMade fun relisted same => by rw [← Except.ok.inj same]).2 none_stale new
  obtain ⟨key, declared, -, found, present, name, -, reported⟩ :=
    recovered.2 [madeHost] rfl madeHost (.head _)
  exact ⟨distinct, none_stale, new madeHost (.head _), key, declared, found, present, name,
    reported adoptsMade rfl⟩

/-- The same key with a recorded host that is gone. -/
def goneRecorded : HostMap := .ofList [("a", { zone := "z", assignedName := some "gone" })]

/-- The next run creates again for a key whose recorded host is gone. -/
theorem not_always_without_create :
    ¬ ∀ (r again : Reconciler) (cluster : String) (desired : Declaration) (prior : HostMap)
      (listed relisted fresh : List HostRecord) (first second : List (Exchange Remote))
      (result : Except SyncError Outcome) (q : Program Remote (Except SyncError Outcome)),
      DistinctNames prior → WellNamed (listed : Multiset HostRecord) →
      (∀ host ∈ fresh, Unrecorded prior host) →
      (r.reconcile cluster desired prior).run.Follows
        (⟨.list cluster, Except.ok listed⟩ :: first) (.done result) →
      History (Falters cluster fresh) ↑listed first ↑relisted →
      (∃ e ∈ first, ∃ specs, e.request = .create cluster specs) → result.toOption = none →
      (again.reconcile cluster desired prior).run.Follows
        (⟨.list cluster, Except.ok relisted⟩ :: second) q →
      ∀ e ∈ second, ∀ id specs, e.request ≠ .create id specs := by
  intro claim
  have run : (({} : Reconciler).reconcile "c" oneKey goneRecorded).run.Follows
      (⟨.list "c", Except.ok []⟩ :: createLost) (.done (.error (.remote .create "a" lostAnswer))) :=
    .ask (.ask (.rest _))
  obtain ⟨q, rerun⟩ : ∃ q, (({} : Reconciler).reconcile "c" oneKey goneRecorded).run.Follows
      (⟨.list "c", Except.ok [madeHost]⟩ :: createLost) q :=
    ⟨_, .ask (.ask (.rest _))⟩
  exact claim {} {} "c" oneKey goneRecorded [] [madeHost] [madeHost] createLost createLost _ q
    (by decide +kernel) ⟨by simp, by simp⟩ (by decide +kernel) run history_createLost
    ⟨_, .head _, _, rfl⟩ rfl rerun _ (.head _) _ _ rfl

end HostRoster
