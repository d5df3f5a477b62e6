import HostRoster.Proofs.Creation
import HostRoster.Proofs.Preparation
import Mathlib.Data.Multiset.UnionInter

/-!
# What adoption depends on

Which keys may take over a host, and which hosts they may take over, depends on the
recorded names alone: the keys are those without a recorded name, and the hosts are
those whose names are recorded nowhere. The listing adds nothing but the order.
-/
namespace HostRoster

/-- The host bears no recorded name. -/
def Unrecorded (prior : HostMap) (host : HostRecord) : Prop :=
  ∀ e ∈ prior.entries, e.2.name = none ∨ e.2.name ≠ host.name

instance (prior : HostMap) : DecidablePred (Unrecorded prior) := fun _ =>
  inferInstanceAs (Decidable (∀ _ ∈ _, _))

/-- No two keys have the same name. -/
def DistinctNames (m : HostMap) : Prop :=
  ∀ a ∈ m.entries, ∀ b ∈ m.entries, a.2.name = b.2.name → a.2.name = none ∨ a = b

instance : DecidablePred DistinctNames := fun _ =>
  inferInstanceAs (Decidable (∀ _ ∈ _, ∀ _ ∈ _, _))

theorem recordedName_eq_some {prior : HostMap} {key n : String} :
    recordedName prior key = some n ↔ ∃ r, (key, r) ∈ prior.entries ∧ r.name = some n := by
  simp [recordedName, Option.bind_eq_some_iff, KeyMap.get?_eq_some]

/-- The keys without a recorded name, each with its class. -/
def unnamedSlots (desired : Declaration) (prior : HostMap) : List (HostClass × String) :=
  (desired.entries.filter fun e => recordedName prior e.1 = none).map fun e => (e.2.hostClass, e.1)

theorem mem_unnamedSlots {desired : Declaration} {prior : HostMap} {c : HostClass} {key : String} :
    (c, key) ∈ unnamedSlots desired prior ↔
      ∃ s, (key, s) ∈ desired.entries ∧ recordedName prior key = none ∧ c = s.hostClass := by
  simp only [unnamedSlots, List.mem_map, List.mem_filter, decide_eq_true_eq, Prod.mk.injEq]
  constructor
  · rintro ⟨⟨key, s⟩, ⟨hs, unnamed⟩, rfl, rfl⟩
    exact ⟨s, hs, unnamed, rfl⟩
  · rintro ⟨s, hs, unnamed, rfl⟩
    exact ⟨(key, s), ⟨hs, unnamed⟩, rfl, rfl⟩

theorem nodup_unnamedSlots (desired : Declaration) (prior : HostMap) :
    ((unnamedSlots desired prior).map Prod.snd).Nodup := by
  rw [unnamedSlots, List.map_map]
  exact desired.nodup_keys.sublist (List.filter_sublist.map Prod.fst)

/-- The declared keys whose recorded name none of the hosts bears. -/
def staleEntries (desired : Declaration) (prior : HostMap) (hosts : Multiset HostRecord) :
    List (String × HostSpec) :=
  desired.entries.filter fun e =>
    ∃ n ∈ recordedName prior e.1, some n ∉ hosts.map HostRecord.name

/-- Further hosts leave no further key stale. -/
theorem staleEntries_add_sublist (desired : Declaration) (prior : HostMap)
    (hosts more : Multiset HostRecord) :
    (staleEntries desired prior (hosts + more)).Sublist (staleEntries desired prior hosts) := by
  refine List.monotone_filter_right _ fun e stale => ?_
  obtain ⟨n, recorded, absent⟩ := of_decide_eq_true stale
  refine decide_eq_true ⟨n, recorded, fun present => absent ?_⟩
  rw [Multiset.map_add]
  exact Multiset.mem_add.2 (.inl present)

namespace Reconciler

variable {desired : Declaration} {prior : HostMap} {listed : List HostRecord}

/-- The listing tied to the declared keys by recorded names alone. -/
def correlateNamed (desired : Declaration) (prior : HostMap) (listed : List HostRecord) :
    Correlation :=
  correlateByName (mergePriorNames desired prior) listed

theorem correlateNamed_accounts (desired : Declaration) (prior : HostMap)
    (listed : List HostRecord) :
    (correlateNamed desired prior listed).Accounts (mergePriorNames desired prior) listed :=
  correlateByName_accounts _ _

/-- The deal in which keys without a name take over hosts of no recorded name. -/
def adoption (desired : Declaration) (prior : HostMap) (listed : List HostRecord) : Deal :=
  (correlateNamed desired prior listed).adoption (mergePriorNames desired prior)
    (retiredNames desired prior)

theorem adoption_settles (desired : Declaration) (prior : HostMap) (listed : List HostRecord) :
    (adoption desired prior listed).Settles
      (unnamedBuckets (correlateNamed desired prior listed).pending (mergePriorNames desired prior))
      (eligible (retiredNames desired prior) (correlateNamed desired prior listed).offered) :=
  Correlation.adoption_settles ..

/-- A host that is tied to a key by name bears the name recorded for it. -/
theorem name_of_mem_correlateNamed {key : String} {host : HostRecord}
    (h : (key, host) ∈ (correlateNamed desired prior listed).pairs) :
    ∃ n, recordedName prior key = some n ∧ host.name = some n ∧ host ∈ listed := by
  obtain ⟨wanted, n, hw, name, hh⟩ := matchNames_pairs _ _ h
  obtain ⟨s, -, rfl⟩ := mem_mergePriorNames.1 hw
  obtain ⟨listed, same⟩ := mem_byName hh
  exact ⟨n, HostSpec.name_named s ▸ name, same, listed⟩

/-- A host that no key has by name bears no name recorded for a declared key. -/
theorem recordedName_ne_of_orphan {host : HostRecord} {key n : String}
    (orphan : host ∈ (correlateNamed desired prior listed).orphans) (declared : key ∈ desired.keys)
    (name : host.name = some n) : recordedName prior key ≠ some n := by
  obtain ⟨s, hs⟩ := KeyMap.mem_keys.1 declared
  have apart := matchNames_orphans _ _ orphan (fun e he => (mem_byName he).2) name
    (mem_mergePriorNames.2 ⟨s, hs, rfl⟩)
  rwa [HostSpec.name_named] at apart

theorem pending_of_unnamed {key : String} (declared : key ∈ desired.keys)
    (unnamed : recordedName prior key = none) (listed : List HostRecord) :
    key ∈ (correlateNamed desired prior listed).pending := by
  have keys := (correlateNamed_accounts desired prior listed).keys
  rw [keys_mergePriorNames] at keys
  rcases List.mem_append.1 (keys.mem_iff.2 declared) with matched | pending
  · obtain ⟨⟨key, host⟩, he, rfl⟩ := List.mem_map.1 matched
    obtain ⟨n, name, -⟩ := name_of_mem_correlateNamed he
    simp [unnamed] at name
  · exact pending

/-- The keys open to adoption are those without a recorded name, whatever is listed. -/
theorem slots_open (desired : Declaration) (prior : HostMap) (listed : List HostRecord) :
    (unnamedBuckets (correlateNamed desired prior listed).pending
      (mergePriorNames desired prior)).slots = ↑(unnamedSlots desired prior) := by
  have pending := (List.nodup_append.1 (correlateNamed_accounts desired prior listed).nodup_keys).2.1
  rw [slots_unnamedBuckets]
  refine Multiset.coe_eq_coe.2 ((List.perm_ext_iff_of_nodup
    ((pending.sublist (openSlots_keys _ _)).of_map _)
    ((nodup_unnamedSlots desired prior).of_map _)).2 fun ⟨c, key⟩ => ?_)
  rw [mem_openSlots, mem_unnamedSlots]
  dsimp only
  constructor
  · rintro ⟨-, wanted, hw, name, rfl⟩
    obtain ⟨s, hs, rfl⟩ := mem_mergePriorNames.1 hw
    exact ⟨s, hs, HostSpec.name_named s ▸ name, rfl⟩
  · rintro ⟨s, hs, unnamed, rfl⟩
    exact ⟨pending_of_unnamed (KeyMap.mem_keys_of_mem hs) unnamed listed, _,
      mem_mergePriorNames.2 ⟨s, hs, rfl⟩, (HostSpec.name_named s).trans unnamed, rfl⟩

/-- The hosts open to adoption are those of no recorded name. -/
theorem eligible_eq (wellNamed : WellNamed (listed : Multiset HostRecord)) :
    (eligible (retiredNames desired prior) (correlateNamed desired prior listed).offered :
      Multiset HostRecord) = (listed : Multiset HostRecord).filter (Unrecorded prior) := by
  have c := correlateNamed_accounts desired prior listed
  have offered := (correlateNamed desired prior listed).perm_offered
  have distinct : (correlateNamed desired prior listed).orphans.Nodup :=
    List.Nodup.of_map _ (c.wellNamed.of_le (Multiset.le_add_left _ _)).distinct
  have once : (eligible (retiredNames desired prior)
      (correlateNamed desired prior listed).offered).Nodup :=
    (offered.nodup_iff.2 distinct).filter _
  refine (Multiset.Nodup.ext (Multiset.coe_nodup.2 once)
    (Multiset.Nodup.filter _ (Multiset.Nodup.of_map _ wellNamed.distinct))).2 fun host => ?_
  rw [Multiset.mem_coe, mem_eligible, Multiset.mem_filter, Multiset.mem_coe, offered.mem_iff,
    HostRecord.isRetired_iff]
  constructor
  · rintro ⟨orphan, kept⟩
    refine ⟨c.mem_listed (List.mem_append_right _ orphan), fun e he => ?_⟩
    by_contra! bears
    obtain ⟨named, same⟩ := bears
    obtain ⟨n, name⟩ := Option.ne_none_iff_exists'.1 named
    by_cases declared : e.1 ∈ desired.keys
    · exact recordedName_ne_of_orphan orphan declared (same ▸ name)
        (recordedName_eq_some.2 ⟨e.2, he, name⟩)
    · exact kept ⟨n, same ▸ name, mem_retiredNames.2 ⟨e, he, declared, name⟩⟩
  · rintro ⟨listing, unrecorded⟩
    have notRecorded : ∀ e ∈ prior.entries, ∀ n, host.name = some n → e.2.name ≠ some n := by
      intro e he n name same
      rcases unrecorded e he with none | other
      · simp [none] at same
      · exact other (same.trans name.symm)
    constructor
    · have all := (c.records.trans (values_byName wellNamed)).mem_iff.2 listing
      rcases List.mem_append.1 all with matched | orphan
      · obtain ⟨⟨key, host⟩, he, rfl⟩ := List.mem_map.1 matched
        obtain ⟨n, recorded, name, -⟩ := name_of_mem_correlateNamed he
        obtain ⟨r, hr, same⟩ := recordedName_eq_some.1 recorded
        exact absurd same (notRecorded _ hr n name)
      · exact orphan
    · rintro ⟨n, name, retired⟩
      obtain ⟨e, he, -, same⟩ := mem_retiredNames.1 retired
      exact notRecorded e he n name same

/-- The keys are dealt out, and the hosts are dealt to. -/
theorem adoption_slots (desired : Declaration) (prior : HostMap) (listed : List HostRecord) :
    (↑(unnamedSlots desired prior) : Multiset (HostClass × String)) =
      ↑((adoption desired prior listed).served.map Match.slot) +
        (adoption desired prior listed).rest.slots :=
  (slots_open desired prior listed).symm.trans (adoption_settles desired prior listed).slots

theorem adoption_hosts (desired : Declaration) (prior : HostMap)
    (wellNamed : WellNamed (listed : Multiset HostRecord)) :
    (listed : Multiset HostRecord).filter (Unrecorded prior) =
      ↑((adoption desired prior listed).served.map Match.host) +
        ↑(adoption desired prior listed).refused :=
  (eligible_eq wellNamed).symm.trans (adoption_settles desired prior listed).hosts

theorem mem_pending {key : String} : key ∈ (correlate desired prior listed).pending ↔
    key ∈ (correlateNamed desired prior listed).pending ∧
      key ∉ (adoption desired prior listed).served.map (·.slot.2) := by
  rw [correlate, Correlation.pending_adoptOrphans, List.mem_filter, decide_eq_true_eq]
  rfl

theorem mem_adopted {key : String} : key ∈ (correlate desired prior listed).adopted ↔
    key ∈ (adoption desired prior listed).served.map (·.slot.2) := by
  rw [correlate, Correlation.adopted_adoptOrphans]
  rfl

theorem mem_matched_of_served {m : Match} (h : m ∈ (adoption desired prior listed).served) :
    (m.slot.2, m.host) ∈ (correlate desired prior listed).matched.entries := by
  rw [(correlate_accounts desired prior listed).mem_matched, correlate,
    Correlation.pairs_adoptOrphans]
  exact List.mem_append_right _ (List.mem_map_of_mem (f := Match.entry) h)

/-- Adoption adds no orphan. -/
theorem orphan_by_name {host : HostRecord} (h : host ∈ (correlate desired prior listed).orphans) :
    host ∈ (correlateNamed desired prior listed).orphans := by
  have offered := (correlateNamed desired prior listed).perm_offered
  refine offered.mem_iff.1 ((Correlation.offered_split _ (mergePriorNames desired prior)
    (retiredNames desired prior)).mem_iff.2 (List.mem_append_right _ ?_))
  exact (Correlation.orphans_adoptOrphans ..).mem_iff.1 h

theorem unnamed_of_served {m : Match} (h : m ∈ (adoption desired prior listed).served) :
    recordedName prior m.slot.2 = none := by
  have slot : m.slot ∈ (↑(unnamedSlots desired prior) : Multiset (HostClass × String)) :=
    adoption_slots desired prior listed ▸
      Multiset.mem_add.2 (.inl (Multiset.mem_coe.2 (List.mem_map_of_mem h)))
  obtain ⟨s, -, unnamed, -⟩ := mem_unnamedSlots.1 (Multiset.mem_coe.1 slot)
  exact unnamed

theorem unnamed_of_adopted {key : String} (h : key ∈ (correlate desired prior listed).adopted) :
    key ∈ desired.keys ∧ recordedName prior key = none := by
  obtain ⟨m, hm, rfl⟩ := List.mem_map.1 (mem_adopted.1 h)
  refine ⟨?_, unnamed_of_served hm⟩
  rw [← keys_mergePriorNames desired prior]
  exact (correlate_accounts desired prior listed).matched_subset
    (KeyMap.mem_keys_of_mem (mem_matched_of_served hm))

/-- With distinct names recorded, a key is pending by name if its name is not listed. -/
theorem mem_pending_named (distinct : DistinctNames prior) {key : String} :
    key ∈ (correlateNamed desired prior listed).pending ↔ key ∈ desired.keys ∧
      ∀ n, recordedName prior key = some n → ∀ host ∈ listed, host.name ≠ some n := by
  have c := correlateNamed_accounts desired prior listed
  constructor
  · intro pending
    have declared := c.keys.mem_iff.1 (List.mem_append_right _ pending)
    obtain ⟨wanted, hw⟩ := KeyMap.mem_keys.1 declared
    refine ⟨keys_mergePriorNames desired prior ▸ declared, fun n recorded host hh name => ?_⟩
    have alone : (mergePriorNames desired prior).entries.Pairwise fun a b =>
        a.2.name = b.2.name → a.2.name = none := by
      refine KeyMap.pairwise_entries fun a ha b hb apart same => ?_
      obtain ⟨s, -, eqa⟩ := mem_mergePriorNames.1 ha
      obtain ⟨t, -, eqb⟩ := mem_mergePriorNames.1 hb
      rw [eqa, eqb, HostSpec.name_named, HostSpec.name_named] at same
      rw [eqa, HostSpec.name_named]
      by_contra named
      obtain ⟨m, na⟩ := Option.ne_none_iff_exists'.1 named
      obtain ⟨x, hx, xn⟩ := recordedName_eq_some.1 na
      obtain ⟨y, hy, yn⟩ := recordedName_eq_some.1 (same.symm.trans na)
      rcases distinct _ hx _ hy (xn.trans yn.symm) with none | eq
      · simp [xn] at none
      · exact apart (Prod.mk.inj eq).1
    obtain ⟨s, -, eq⟩ := mem_mergePriorNames.1 hw
    refine matchNames_pending _ _ alone (KeyMap.nodup_keys _) pending hw
      (eq ▸ (HostSpec.name_named s).trans recorded) (mem_keys_byName.2 ⟨host, hh, name⟩)
  · rintro ⟨declared, absent⟩
    rw [← keys_mergePriorNames desired prior] at declared
    rcases List.mem_append.1 (c.keys.mem_iff.2 declared) with matched | pending
    · obtain ⟨⟨key, host⟩, he, rfl⟩ := List.mem_map.1 matched
      obtain ⟨n, recorded, name, hh⟩ := name_of_mem_correlateNamed he
      exact absurd name (absent n recorded host hh)
    · exact pending

/-- The keys that adoption leaves are the keys to create that have no recorded name. -/
theorem slots_to_create {creates : Declaration} (mem : ∀ key s, (key, s) ∈ creates.entries ↔
      (key, s) ∈ desired.entries ∧ key ∈ (correlate desired prior listed).pending) :
    (Buckets.ofDeclaration creates).slots.filter (fun slot => recordedName prior slot.2 = none) =
      (adoption desired prior listed).rest.slots := by
  have all := adoption_slots desired prior listed
  let taken : Multiset (HostClass × String) := ↑((adoption desired prior listed).served.map Match.slot)
  have keys : (taken.map Prod.snd +
      (adoption desired prior listed).rest.slots.map Prod.snd).Nodup := by
    rw [← Multiset.map_add, ← all]
    exact nodup_unnamedSlots desired prior
  have restKeys := Multiset.nodup_of_le (Multiset.le_add_left _ _) keys
  have apart := Multiset.disjoint_of_nodup_add keys
  have created : (Buckets.ofDeclaration creates).slots.Nodup := by
    refine Multiset.Nodup.of_map Prod.snd ?_
    rw [ofDeclaration_slots_keys]
    exact creates.nodup_keys
  refine (Multiset.Nodup.ext (created.filter _) (restKeys.of_map _)).2 fun ⟨c, key⟩ => ?_
  rw [Multiset.mem_filter]
  constructor
  · rintro ⟨slot, unnamed⟩
    obtain ⟨s, hs, rfl⟩ := mem_slots_ofDeclaration slot
    obtain ⟨declared, pending⟩ := (mem key s).1 hs
    have open_ : (s.hostClass, key) ∈ (↑(unnamedSlots desired prior) : Multiset _) :=
      Multiset.mem_coe.2 (mem_unnamedSlots.2 ⟨s, declared, unnamed, rfl⟩)
    rw [all] at open_
    rcases Multiset.mem_add.1 open_ with taken | left
    · obtain ⟨m, hm, eq⟩ := List.mem_map.1 (Multiset.mem_coe.1 taken)
      exact absurd (List.mem_map.2 ⟨m, hm, congrArg Prod.snd eq⟩) (mem_pending.1 pending).2
    · exact left
  · intro left
    have open_ : (c, key) ∈ (↑(unnamedSlots desired prior) : Multiset _) :=
      all ▸ Multiset.mem_add.2 (.inr left)
    obtain ⟨s, hs, unnamed, rfl⟩ := mem_unnamedSlots.1 (Multiset.mem_coe.1 open_)
    refine ⟨?_, unnamed⟩
    rw [Buckets.slots_ofDeclaration, Multiset.mem_coe, List.mem_map]
    refine ⟨(key, s), (mem key s).2 ⟨hs, mem_pending.2 ⟨pending_of_unnamed
      (KeyMap.mem_keys_of_mem hs) unnamed listed, fun taken => ?_⟩⟩, rfl⟩
    obtain ⟨m, hm, eq⟩ := List.mem_map.1 taken
    refine Multiset.disjoint_left.1 apart (Multiset.mem_map.2 ⟨m.slot, ?_, eq⟩)
      (Multiset.mem_map_of_mem _ left)
    exact Multiset.mem_coe.2 (List.mem_map_of_mem hm)

section Creates

variable {r : Reconciler} {p : Prepared}

/-- Of the keys with a recorded name, those whose host is gone are created again. -/
theorem Prepares.named_creates (h : r.Prepares desired prior listed p)
    (distinct : DistinctNames prior) :
    p.diff.toCreate.entries.filter (fun e => recordedName prior e.1 ≠ none) =
      staleEntries desired prior ↑listed := by
  rw [h.entries_creates, List.filter_filter, staleEntries]
  refine List.filter_congr fun e he => ?_
  rw [Bool.eq_iff_iff, Bool.and_eq_true, decide_eq_true_eq, decide_eq_true_eq, decide_eq_true_eq,
    mem_pending, mem_pending_named distinct]
  constructor
  · rintro ⟨named, ⟨-, absent⟩, -⟩
    obtain ⟨n, recorded⟩ := Option.ne_none_iff_exists'.1 named
    refine ⟨n, recorded, fun present => ?_⟩
    obtain ⟨host, hh, name⟩ := Multiset.mem_map.1 present
    exact absent n recorded host (Multiset.mem_coe.1 hh) name
  · rintro ⟨n, (recorded : recordedName prior e.1 = some n), absent⟩
    refine ⟨by simp [recorded], ⟨KeyMap.mem_keys_of_mem he, fun m same host hh name => ?_⟩,
      fun served => ?_⟩
    · obtain rfl := Option.some.inj (recorded.symm.trans same)
      exact absent (Multiset.mem_map.2 ⟨host, Multiset.mem_coe.2 hh, name⟩)
    · obtain ⟨m, hm, key⟩ := List.mem_map.1 served
      simp [← key, unnamed_of_served hm] at recorded

/-- Of the keys without a recorded name, those that adoption leaves are created. -/
theorem Prepares.length_unnamed_creates (h : r.Prepares desired prior listed p) :
    (p.diff.toCreate.entries.filter fun e => recordedName prior e.1 = none).length =
      (adoption desired prior listed).rest.size := by
  rw [Buckets.size_eq_card, ← slots_to_create fun key s => h.mem_creates,
    Buckets.slots_ofDeclaration, Multiset.filter_coe, List.filter_map, Multiset.coe_card,
    List.length_map]
  rfl

end Creates

end Reconciler

end HostRoster
