import HostRoster.Proofs.Correlation

/-!
# Tying created hosts to their keys

After a bulk create the listed hosts are handed back to the keys they were created
for. If it succeeds, every key gets one host that fits it and every host is used;
and it does succeed whenever the hosts can be assigned to the keys at all.
-/
namespace HostRoster

/-- A host of a key's class, or one that only fills in the subnet the key left open. -/
def HostRecord.Suits (r : HostRecord) (s : HostSpec) : Prop := r.hostClass.Fits s.hostClass

theorem ofDeclaration_slots_keys (d : Declaration) :
    (Buckets.ofDeclaration d).slots.map Prod.snd = ↑d.keys := by
  rw [Buckets.slots_ofDeclaration, Multiset.map_coe, List.map_map]
  rfl

theorem mem_slots_ofDeclaration {d : Declaration} {slot : HostClass × String}
    (h : slot ∈ (Buckets.ofDeclaration d).slots) :
    ∃ s, (slot.2, s) ∈ d.entries ∧ slot.1 = s.hostClass := by
  rw [Buckets.slots_ofDeclaration, Multiset.mem_coe, List.mem_map] at h
  obtain ⟨e, he, rfl⟩ := h
  exact ⟨e.2, he, rfl⟩

/-- Every host is used once, every key gets one, and they suit each other. -/
structure Handed (d : Declaration) (actual : List HostRecord) (mapped : HostMap) : Prop where
  keys : mapped.keys.Perm d.keys
  hosts : mapped.values.Perm actual
  suits : ∀ e ∈ mapped.entries, ∃ s, (e.1, s) ∈ d.entries ∧ e.2.Suits s
  named : ∀ r ∈ mapped.values, r.name.isSome

theorem correlateCreated_handed {d : Declaration} {actual : List HostRecord} {mapped : HostMap}
    (h : correlateCreated (.ofDeclaration d) actual = .ok mapped) : Handed d actual mapped := by
  rw [correlateCreated] at h
  split at h
  next count =>
    obtain ⟨none_refused, named, rfl⟩ := assignKeys_eq_ok.1 h
    have settles := (Buckets.ofDeclaration d).deal_settles actual
    set deal := (Buckets.ofDeclaration d).deal actual
    have hosts : (deal.served.map Match.host).Perm actual := by
      have all := settles.hosts
      rw [none_refused] at all
      exact (Multiset.coe_eq_coe.1 (by simpa using all)).symm
    have none_left : deal.rest.slots = 0 := by
      have slots := settles.card_slots
      have used := settles.card_hosts
      rw [none_refused, List.length_nil] at used
      rw [Buckets.size_eq_card deal.rest] at slots
      exact Multiset.card_eq_zero.1 (by omega)
    have slots : (Buckets.ofDeclaration d).slots = ↑(deal.served.map Match.slot) := by
      simpa [none_left] using settles.slots
    have keys : (deal.served.map fun m => m.entry.1).Perm d.keys := by
      have all := ofDeclaration_slots_keys d
      rw [slots, Multiset.map_coe, List.map_map] at all
      exact Multiset.coe_eq_coe.1 all
    have entries : ((∅ : HostMap).insertAll (deal.served.map Match.entry)).entries.Perm
        (deal.served.map Match.entry) := by
      have placed := KeyMap.perm_insertAll (m := (∅ : HostMap)) (l := deal.served.map Match.entry)
        (by simpa [Function.comp_def] using keys.nodup_iff.2 d.nodup_keys)
      simpa using placed
    have values : ((∅ : HostMap).insertAll (deal.served.map Match.entry)).values.Perm actual := by
      have placed := entries.map Prod.snd
      rw [List.map_map] at placed
      exact placed.trans hosts
    refine ⟨?_, values, fun e he => ?_, fun r hr => named r (values.mem_iff.1 hr)⟩
    · have placed := entries.map Prod.fst
      rw [List.map_map] at placed
      exact placed.trans keys
    · obtain ⟨m, hm, rfl⟩ := List.mem_map.1 (entries.mem_iff.1 he)
      have slot : m.slot ∈ (Buckets.ofDeclaration d).slots :=
        slots ▸ Multiset.mem_coe.2 (List.mem_map_of_mem hm)
      obtain ⟨s, hs, cls⟩ := mem_slots_ofDeclaration slot
      exact ⟨s, hs, show m.host.hostClass.Fits s.hostClass from cls ▸ settles.fits m hm⟩
  next => simp at h

/-- If named hosts can be assigned to the keys one to one, the greedy rule does so too. -/
theorem correlateCreated_of_assignment {d : Declaration} {actual : List HostRecord}
    {other : Multiset Match} (fits : ∀ m ∈ other, m.Fits)
    (hosts : other.map Match.host = actual)
    (slots : other.map Match.slot = (Buckets.ofDeclaration d).slots)
    (named : ∀ r ∈ actual, r.name.isSome) :
    ∃ mapped, correlateCreated (.ofDeclaration d) actual = .ok mapped := by
  have count : actual.length = (Buckets.ofDeclaration d).size := by
    have h := congrArg Multiset.card hosts
    have k := congrArg Multiset.card slots
    rw [Multiset.card_map] at h k
    rw [Buckets.size_eq_card, ← k, h, Multiset.coe_card]
  refine ⟨_, (if_pos count).trans (assignKeys_eq_ok.2 ⟨?_, named, rfl⟩)⟩
  exact ((Buckets.ofDeclaration d).deal_settles actual).refused_eq_nil fits hosts slots.le

end HostRoster
