import HostRoster.Proofs.Creation
import Mathlib.Data.List.Perm.Subperm

/-!
# One-to-one assignments of hosts to keys

The greedy rule by which hosts take keys is measured here against all other ways of giving
hosts to keys. If all hosts of a create call can be given to all its keys, the rule does so,
whatever their order; and no assignment of orphans to keys without a name gives more of
them a key than adoption does.
-/
namespace HostRoster

/-- The host is what the spec asks for: its zone and its flag, and its subnet if it names one. -/
def HostSpec.Admits (s : HostSpec) (host : HostRecord) : Prop :=
  host.zone = s.zone ∧ host.assignPublicIp = s.assignPublicIp ∧
    (s.subnetId = none ∨ host.subnetId = s.subnetId)

instance (s : HostSpec) (host : HostRecord) : Decidable (s.Admits host) :=
  inferInstanceAs (Decidable (_ ∧ _))

theorem HostSpec.admits_iff {s : HostSpec} {host : HostRecord} :
    s.Admits host ↔ host.hostClass.Fits s.hostClass :=
  fits_iff.symm

/-- The class that a declared key waits in. -/
def declaredClass (d : Declaration) (key : String) : HostClass :=
  ((d.get? key).getD default).hostClass

theorem declaredClass_eq {d : Declaration} {key : String} {s : HostSpec}
    (hs : (key, s) ∈ d.entries) : declaredClass d key = s.hostClass := by
  rw [declaredClass, KeyMap.get?_eq_some.2 hs, Option.getD_some]

/-- Keys with hosts as matches, each key in the class it is declared with. -/
def matchesOf (d : Declaration) (pairs : List (String × HostRecord)) : Multiset Match :=
  ↑(pairs.map fun e => Match.mk e.2 (declaredClass d e.1, e.1))

section Matches

variable (d : Declaration) (pairs : List (String × HostRecord))

@[simp] theorem card_matchesOf : Multiset.card (matchesOf d pairs) = pairs.length := by
  simp [matchesOf]

theorem map_host_matchesOf : (matchesOf d pairs).map Match.host = ↑(pairs.map Prod.snd) := by
  rw [matchesOf, Multiset.map_coe, List.map_map]
  rfl

theorem map_slot_matchesOf : (matchesOf d pairs).map Match.slot =
    ↑((pairs.map Prod.fst).map fun key => (declaredClass d key, key)) := by
  rw [matchesOf, Multiset.map_coe, List.map_map, List.map_map]
  rfl

variable {d pairs}

theorem fits_matchesOf
    (admits : ∀ e ∈ pairs, ∃ s, (e.1, s) ∈ d.entries ∧ s.Admits e.2) :
    ∀ m ∈ matchesOf d pairs, m.Fits := by
  intro m hm
  obtain ⟨e, he, rfl⟩ := List.mem_map.1 (Multiset.mem_coe.1 hm)
  obtain ⟨s, hs, suits⟩ := admits e he
  have fits : e.2.hostClass.Fits (declaredClass d e.1) :=
    declaredClass_eq hs ▸ HostSpec.admits_iff.1 suits
  exact fits

end Matches

section Creation

variable {d : Declaration} {actual : List HostRecord} {pairs : List (String × HostRecord)}

/-- The pairs give every host to a key and every declared key a host that is what it asks for. -/
structure Assigns (d : Declaration) (actual : List HostRecord)
    (pairs : List (String × HostRecord)) : Prop where
  keys : (pairs.map Prod.fst).Perm d.keys
  hosts : (pairs.map Prod.snd).Perm actual
  admits : ∀ key host s, (key, host) ∈ pairs → (key, s) ∈ d.entries → s.Admits host

/-- Of the hosts, only which they are counts, not their order. -/
theorem Assigns.of_perm {other : List HostRecord} (a : Assigns d actual pairs)
    (perm : actual.Perm other) : Assigns d other pairs :=
  ⟨a.keys, a.hosts.trans perm, a.admits⟩

theorem slots_eq_declaredClass (d : Declaration) : (Buckets.ofDeclaration d).slots =
    ↑(d.keys.map fun key => (declaredClass d key, key)) := by
  rw [Buckets.slots_ofDeclaration, KeyMap.keys, List.map_map]
  refine congrArg _ (List.map_congr_left fun e he => ?_)
  exact Prod.ext (declaredClass_eq he).symm rfl

theorem Assigns.exists_mapped (a : Assigns d actual pairs)
    (named : ∀ host ∈ actual, host.name.isSome) :
    ∃ mapped, correlateCreated (.ofDeclaration d) actual = .ok mapped := by
  have fits : ∀ m ∈ matchesOf d pairs, m.Fits := fits_matchesOf fun e he => by
    obtain ⟨s, hs⟩ := KeyMap.mem_keys.1 (a.keys.mem_iff.1 (List.mem_map_of_mem he))
    exact ⟨s, hs, a.admits e.1 e.2 s he hs⟩
  refine correlateCreated_of_assignment fits ?_ ?_ named
  · rw [map_host_matchesOf]
    exact Multiset.coe_eq_coe.2 a.hosts
  · rw [map_slot_matchesOf, slots_eq_declaredClass]
    exact Multiset.coe_eq_coe.2 (a.keys.map _)

theorem Handed.assigns {mapped : HostMap} (h : Handed d actual mapped) :
    Assigns d actual mapped.entries := by
  refine ⟨h.keys, h.hosts, fun key host s he hs => ?_⟩
  obtain ⟨declared, hd, suits⟩ := h.suits (key, host) he
  rw [KeyMap.eq_of_mem hs hd]
  exact HostSpec.admits_iff.2 suits

theorem size_ofDeclaration (d : Declaration) : (Buckets.ofDeclaration d).size = d.size := by
  rw [Buckets.size_eq_card, Buckets.slots_ofDeclaration, Multiset.coe_card, List.length_map,
    KeyMap.size]

theorem exists_mapped_iff : (∃ mapped, correlateCreated (.ofDeclaration d) actual = .ok mapped) ↔
    (∀ host ∈ actual, host.name.isSome) ∧ ∃ pairs, Assigns d actual pairs := by
  constructor
  · rintro ⟨mapped, done⟩
    have handed := correlateCreated_handed done
    exact ⟨fun host hh => handed.named host (handed.hosts.mem_iff.2 hh), _, handed.assigns⟩
  · rintro ⟨named, pairs, a⟩
    exact a.exists_mapped named

/-- The hosts of a create call can be tied to the declared keys exactly if they are named and can
all be assigned to all keys; the result is such an assignment. Their order does not matter, and
another number of hosts than of keys is refused as such. -/
theorem correlateCreated_ok_iff (d : Declaration) (actual : List HostRecord) :
    ((∃ mapped, correlateCreated (.ofDeclaration d) actual = .ok mapped) ↔
        (∀ host ∈ actual, host.name.isSome) ∧ ∃ pairs, Assigns d actual pairs) ∧
      (∀ mapped, correlateCreated (.ofDeclaration d) actual = .ok mapped →
        mapped.keys = d.keys ∧ Assigns d actual mapped.entries) ∧
      (∀ other, actual.Perm other →
        ((∃ mapped, correlateCreated (.ofDeclaration d) actual = .ok mapped) ↔
          ∃ mapped, correlateCreated (.ofDeclaration d) other = .ok mapped)) ∧
      (actual.length ≠ d.size → correlateCreated (.ofDeclaration d) actual =
        .error (.countMismatch d.size actual.length)) := by
  refine ⟨exists_mapped_iff, fun mapped done => ?_, fun other perm => ?_, fun differ => ?_⟩
  · have handed := correlateCreated_handed done
    exact ⟨KeyMap.keys_eq_of_perm handed.keys, handed.assigns⟩
  · rw [exists_mapped_iff, exists_mapped_iff]
    refine and_congr ?_ (exists_congr fun pairs => ?_)
    · exact forall_congr' fun host => imp_congr_left perm.mem_iff
    · exact ⟨fun a => a.of_perm perm, fun a => a.of_perm perm.symm⟩
  · rw [correlateCreated, size_ofDeclaration, if_neg differ]

/-- A host in a subnet that one key names leaves the key that names none to its fellow, whichever
of the two is listed first. -/
example :
    let d : Declaration :=
      .ofList [("named", { zone := "z", subnetId := some "s" }), ("open", { zone := "z" })]
    let own : HostRecord := { zone := "z", subnetId := some "s", assignedName := some "h1" }
    let fellow : HostRecord := { zone := "z", subnetId := some "t", assignedName := some "h2" }
    let mapped : HostMap := .ofList [("named", own), ("open", fellow)]
    correlateCreated (.ofDeclaration d) [own, fellow] = .ok mapped ∧
      correlateCreated (.ofDeclaration d) [fellow, own] = .ok mapped := by
  decide +kernel

end Creation

section Adoption

variable {c : Correlation} {wanted : HostMap} {retired : List String} {listed : List HostRecord}
  {pairs : List (String × HostRecord)}

/-- The pairs give orphans, each once at most, to pending keys, each once at most. The keys have
no name, the orphans' names are not retired, and each orphan is what its key asks for. -/
structure Adopts (c : Correlation) (wanted : HostMap) (retired : List String)
    (pairs : List (String × HostRecord)) : Prop where
  keys : (pairs.map Prod.fst).Nodup
  hosts : (pairs.map Prod.snd).Subperm c.orphans
  unnamed : ∀ e ∈ pairs, e.1 ∈ c.pending ∧
    ∃ w, (e.1, w) ∈ wanted.entries ∧ w.name = none ∧ w.toHostSpec.Admits e.2
  kept : ∀ e ∈ pairs, ∀ n, e.2.name = some n → n ∉ retired

/-- What the keys of a host map ask for, without their names. -/
def specsOf (wanted : HostMap) : Declaration := wanted.map fun _ w => w.toHostSpec

theorem mem_specsOf {key : String} {w : HostRecord} (hw : (key, w) ∈ wanted.entries) :
    (key, w.toHostSpec) ∈ (specsOf wanted).entries :=
  List.mem_map_of_mem hw

theorem Adopts.slots_le (a : Adopts c wanted retired pairs) :
    (matchesOf (specsOf wanted) pairs).map Match.slot ≤
      (unnamedBuckets c.pending wanted).slots := by
  rw [map_slot_matchesOf, slots_unnamedBuckets]
  -- a slot holds its key, so with the keys distinct it is enough that each slot is there
  have once : ((pairs.map Prod.fst).map fun key =>
      (declaredClass (specsOf wanted) key, key)).Nodup :=
    a.keys.map fun x y same => (Prod.mk.inj same).2
  refine (Multiset.le_iff_subset (Multiset.coe_nodup.2 once)).2 fun slot hs => ?_
  obtain ⟨key, hk, rfl⟩ := List.mem_map.1 (Multiset.mem_coe.1 hs)
  obtain ⟨e, he, rfl⟩ := List.mem_map.1 hk
  obtain ⟨pending, w, hw, name, -⟩ := a.unnamed e he
  exact Multiset.mem_coe.2 (mem_openSlots.2
    ⟨pending, w, hw, name, declaredClass_eq (mem_specsOf hw)⟩)

theorem Adopts.hosts_le (a : Adopts c wanted retired pairs) :
    (matchesOf (specsOf wanted) pairs).map Match.host ≤ ↑(eligible retired c.offered) := by
  rw [map_host_matchesOf, eligible, ← Multiset.filter_coe, Multiset.le_filter]
  constructor
  · rw [Multiset.coe_eq_coe.2 c.perm_offered]
    exact Multiset.coe_le.2 a.hosts
  · intro host hh gone
    obtain ⟨e, he, rfl⟩ := List.mem_map.1 (Multiset.mem_coe.1 hh)
    obtain ⟨n, name, out⟩ := HostRecord.isRetired_iff.1 gone
    exact a.kept e he n name out

/-- No assignment gives more orphans a key than adoption does. -/
theorem Adopts.length_le (a : Adopts c wanted retired pairs) :
    pairs.length ≤ (c.adoption wanted retired).served.length := by
  have fits : ∀ m ∈ matchesOf (specsOf wanted) pairs, m.Fits := fits_matchesOf fun e he => by
    obtain ⟨-, w, hw, -, admits⟩ := a.unnamed e he
    exact ⟨_, mem_specsOf hw, admits⟩
  have classes := Multiset.map_le_map (f := fun r : HostRecord => r.hostClass) a.hosts_le
  rw [Multiset.map_map] at classes
  have most := (c.adoption_settles wanted retired).card_le fits classes a.slots_le
  rwa [card_matchesOf] at most

/-- What adoption does is such an assignment. -/
theorem Correlation.Accounts.adopts (h : c.Accounts wanted listed) (retired : List String) :
    Adopts c wanted retired ((c.adoption wanted retired).served.map Match.entry) := by
  have pending : c.pending.Nodup := (List.nodup_append.1 h.nodup_keys).2.1
  refine ⟨?_, ?_, fun e he => ?_, fun e he n name gone => ?_⟩
  · rw [List.map_map]
    exact adoption_keys wanted retired pending
  · rw [List.map_map]
    have split := c.perm_offered.symm.trans (c.offered_split wanted retired)
    exact (List.sublist_append_left _ _).subperm.trans split.symm.subperm
  · obtain ⟨m, hm, rfl⟩ := List.mem_map.1 he
    obtain ⟨fits, -, -, isPending, w, hw, name, slot⟩ := mem_adoption hm
    refine ⟨isPending, w, hw, name, HostSpec.admits_iff.2 ?_⟩
    rw [Match.Fits, slot] at fits
    exact fits
  · obtain ⟨m, hm, rfl⟩ := List.mem_map.1 he
    obtain ⟨-, -, keeps, -⟩ := mem_adoption hm
    exact keeps (HostRecord.isRetired_iff.2 ⟨n, name, gone⟩)

/-- After adoption, no orphan that may be adopted is what a pending key without a name asks for. -/
theorem Correlation.not_admits_of_pending {key : String} {w host : HostRecord}
    (pending : key ∈ (c.adoptOrphans wanted retired).pending)
    (hw : (key, w) ∈ wanted.entries) (name : w.name = none)
    (orphan : host ∈ (c.adoptOrphans wanted retired).orphans)
    (keeps : ∀ n, host.name = some n → n ∉ retired) : ¬ w.toHostSpec.Admits host := by
  have settles := c.adoption_settles wanted retired
  rw [pending_adoptOrphans, List.mem_filter, decide_eq_true_eq] at pending
  have slot : (w.hostClass, key) ∈ (unnamedBuckets c.pending wanted).slots := by
    rw [slots_unnamedBuckets, Multiset.mem_coe, mem_openSlots]
    exact ⟨pending.1, w, hw, name, rfl⟩
  have left : (w.hostClass, key) ∈ (c.adoption wanted retired).rest.slots := by
    rw [settles.slots] at slot
    rcases Multiset.mem_add.1 slot with taken | left
    · obtain ⟨m, hm, same⟩ := List.mem_map.1 (Multiset.mem_coe.1 taken)
      exact absurd (List.mem_map.2 ⟨m, hm, congrArg Prod.snd same⟩) pending.2
    · exact left
  have refused : host ∈ (c.adoption wanted retired).refused := by
    rcases List.mem_append.1 ((orphans_adoptOrphans c wanted retired).mem_iff.1 orphan) with
      refused | gone
    · exact refused
    · have retires := of_decide_eq_true (List.mem_filter.1 gone).2
      obtain ⟨n, name, out⟩ := HostRecord.isRetired_iff.1 retires
      exact absurd out (keeps n name)
  exact fun admits => settles.refused host refused _ left (HostSpec.admits_iff.1 admits)

/-- The host itself, matched or not. -/
def CorrelatedHost.record : CorrelatedHost → HostRecord
  | matched _ record => record
  | orphaned record => record

theorem CorrelatedHost.perm_records (hosts : List CorrelatedHost) :
    (hosts.map record).Perm ((hosts.filterMap match?).map Prod.snd ++ hosts.filterMap orphan?) := by
  induction hosts with
  | nil => rfl
  | cons host rest ih =>
    cases host with
    | matched key r => exact ih.cons r
    | orphaned r => exact (ih.cons r).trans List.perm_middle.symm

theorem Correlation.Accounts.perm_records (h : c.Accounts wanted listed) :
    (c.hosts.map CorrelatedHost.record).Perm (byName listed).values :=
  (CorrelatedHost.perm_records c.hosts).trans h.records

/-- Adoption leaves the hosts matched by name and the hosts as a whole as they are, gives orphans
to keys only where it may, and gives as many of them a key as can be. -/
theorem adoptOrphans_most (wanted : HostMap) (retired : List String) (listed : List HostRecord) :
    let before := correlateByName wanted listed
    let after := before.adoptOrphans wanted retired
    (∃ taken, Adopts before wanted retired taken ∧ after.pairs = before.pairs ++ taken ∧
        after.adopted = taken.map Prod.fst) ∧
      (∀ other, Adopts before wanted retired other → other.length ≤ after.adopted.length) ∧
      (after.hosts.map CorrelatedHost.record).Perm (before.hosts.map CorrelatedHost.record) ∧
      (after.pairs.map Prod.fst ++ after.pending).Perm wanted.keys ∧
      ∀ key ∈ after.pending, ∀ w, (key, w) ∈ wanted.entries → w.name = none →
        ∀ host ∈ after.orphans, (∀ n, host.name = some n → n ∉ retired) →
          ¬ w.toHostSpec.Admits host := by
  intro before after
  have accounts := correlateByName_accounts wanted listed
  have afterwards := accounts.adoptOrphans retired
  have adopted : after.adopted = (before.adoption wanted retired).served.map (·.slot.2) :=
    before.adopted_adoptOrphans wanted retired
  refine ⟨⟨_, accounts.adopts retired, before.pairs_adoptOrphans wanted retired, ?_⟩,
    fun other a => ?_, afterwards.perm_records.trans accounts.perm_records.symm, afterwards.keys,
    fun key pending w hw name host orphan keeps =>
      Correlation.not_admits_of_pending pending hw name orphan keeps⟩
  · rw [adopted, List.map_map]
    rfl
  · rw [adopted, List.length_map]
    exact a.length_le

end Adoption

end HostRoster
