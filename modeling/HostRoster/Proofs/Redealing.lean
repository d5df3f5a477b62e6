import HostRoster.Proofs.Dealing

/-!
# Dealing again

A first deal leaves keys, hosts are made for these keys, and then all hosts are dealt the
same keys once more, perhaps in another order and without some hosts that were refused.
The second deal leaves no key, and it refuses none of the hosts that were made.
-/
namespace HostRoster

section Counting

variable {served other : Multiset Match} {refused left : Multiset HostClass}

/-- Two assignments of the same keys use as many hosts of one zone and flag. -/
theorem countP_withoutSubnet_eq (servedFits : ∀ m ∈ served, m.Fits) (otherFits : ∀ m ∈ other, m.Fits)
    (slots : served.map Match.slot = other.map Match.slot)
    (hosts : served.map Match.hostClass + refused = other.map Match.hostClass + left)
    (c : HostClass) :
    refused.countP (·.withoutSubnet = c) = left.countP (·.withoutSubnet = c) := by
  have bySlot : ∀ {matches' : Multiset Match}, (∀ m ∈ matches', m.Fits) →
      (matches'.map Match.hostClass).countP (·.withoutSubnet = c) =
        (matches'.map Match.slot).countP (·.1.withoutSubnet = c) := by
    intro matches' fits
    rw [Multiset.countP_map, Multiset.countP_map, ← Multiset.countP_eq_card_filter,
      ← Multiset.countP_eq_card_filter]
    refine Multiset.countP_congr rfl fun m hm => ?_
    rw [(fits m hm).withoutSubnet_eq]
    rfl
  have total := congrArg (Multiset.countP (·.withoutSubnet = c)) hosts
  rw [Multiset.countP_add, Multiset.countP_add, bySlot servedFits, bySlot otherFits, slots] at total
  omega

/-- A class whose own keys take up all its hosts in one assignment loses none of them to
another assignment of the same keys. -/
theorem not_mem_refused (servedFits : ∀ m ∈ served, m.Fits)
    (slots : served.map Match.slot = other.map Match.slot)
    (hosts : served.map Match.hostClass + refused = other.map Match.hostClass + left)
    {c : HostClass} (subnet : c.withoutSubnet ≠ c)
    (own : ∀ m ∈ other, m.hostClass = c → m.slot.1 = c) (none_left : c ∉ left) : c ∉ refused := by
  have fewer : (other.map Match.hostClass).count c ≤ (other.map Match.slot).countP (·.1 = c) := by
    rw [Multiset.count_map, Multiset.countP_map, ← Multiset.countP_eq_card_filter,
      ← Multiset.countP_eq_card_filter]
    exact countP_le_countP fun m hm host => own m hm host.symm
  have more : (served.map Match.slot).countP (·.1 = c) ≤ (served.map Match.hostClass).count c := by
    rw [Multiset.count_map, Multiset.countP_map, ← Multiset.countP_eq_card_filter,
      ← Multiset.countP_eq_card_filter]
    refine countP_le_countP fun m hm slot => ?_
    rcases servedFits m hm with same | opened
    · exact slot.symm.trans same
    · refine absurd ?_ subnet
      rw [← slot, opened]
      rfl
  have total := congrArg (Multiset.count c) hosts
  rw [Multiset.count_add, Multiset.count_add, Multiset.count_eq_zero.2 none_left] at total
  rw [slots] at more
  exact Multiset.count_eq_zero.1 (by omega)

end Counting

namespace Deal.Settles

variable {d again : Deal} {b b' : Buckets} {hosts hosts' : List HostRecord} {made : Multiset Match}

/-- With hosts made for the keys a deal left, dealing again leaves a key at most for each of
them that is lost. -/
theorem size_rest_again (h : d.Settles b hosts) (h' : again.Settles b' hosts')
    (slots : b'.slots = b.slots) (fits : ∀ m ∈ made, m.Fits)
    (filled : made.map Match.slot = d.rest.slots) {kept : Multiset Match} (le : kept ≤ made)
    (present : (↑d.served + kept).map Match.hostClass ≤
      (hosts' : Multiset HostRecord).map (·.hostClass)) :
    again.rest.size + Multiset.card kept ≤ Multiset.card made := by
  have most := h'.card_le (fun m hm => ?_) present ?_
  · have first := h.card_slots
    have second := h'.card_slots
    have rest := congrArg Multiset.card filled
    rw [Multiset.card_map, ← Buckets.size_eq_card] at rest
    rw [Multiset.card_add, Multiset.coe_card] at most
    rw [Buckets.size_eq_card, slots, ← Buckets.size_eq_card] at second
    omega
  · rcases Multiset.mem_add.1 hm with hm | hm
    · exact h.fits m hm
    · exact fits m (Multiset.mem_of_le le hm)
  · rw [Multiset.map_add, slots, h.slots, Multiset.map_coe, ← filled]
    exact Multiset.add_le_add_iff_left.2 (Multiset.map_le_map le)

theorem rest_again (h : d.Settles b hosts) (h' : again.Settles b' hosts') (slots : b'.slots = b.slots)
    (fits : ∀ m ∈ made, m.Fits) (filled : made.map Match.slot = d.rest.slots)
    (present : (↑d.served + made).map Match.hostClass ≤
      (hosts' : Multiset HostRecord).map (·.hostClass)) : again.rest.slots = 0 := by
  have none_lost := h.size_rest_again h' slots fits filled le_rfl present
  rw [Buckets.size_eq_card] at none_lost
  exact Multiset.card_eq_zero.1 (by omega)

/-- Dealing again refuses none of the hosts that were made for the keys a deal left, nor
another host of their classes. -/
theorem made_served (h : d.Settles b hosts) (h' : again.Settles b' hosts')
    (slots : b'.slots = b.slots) (fits : ∀ m ∈ made, m.Fits)
    (filled : made.map Match.slot = d.rest.slots) {left : Multiset HostClass}
    (refused : left ≤ (d.refused : Multiset HostRecord).map (·.hostClass))
    (classes : (hosts' : Multiset HostRecord).map (·.hostClass) =
      (↑d.served + made).map Match.hostClass + left)
    {y : HostRecord} (hy : y ∈ again.refused) : y.hostClass ∉ made.map Match.hostClass := by
  intro isMade
  obtain ⟨t, ht, sameClass⟩ := Multiset.mem_map.1 isMade
  have allFit : ∀ m ∈ ↑d.served + made, m.Fits := fun m hm => by
    rcases Multiset.mem_add.1 hm with hm | hm
    · exact h.fits m hm
    · exact fits m hm
  have keys : (again.served : Multiset Match).map Match.slot = (↑d.served + made).map Match.slot := by
    have none_left := h.rest_again h' slots fits filled (classes ▸ Multiset.le_add_right _ _)
    rw [Multiset.map_add, filled, Multiset.map_coe, Multiset.map_coe, ← h.slots, ← slots, h'.slots,
      none_left, Multiset.add_zero]
  have hostsUsed : (again.served : Multiset Match).map Match.hostClass +
      (again.refused : Multiset HostRecord).map (·.hostClass) =
        (↑d.served + made).map Match.hostClass + left := by
    rw [← classes, h'.hosts, Multiset.map_add, ← Multiset.map_coe, Multiset.map_map]
    rfl
  have inRefused : y.hostClass ∈ (again.refused : Multiset HostRecord).map (·.hostClass) :=
    Multiset.mem_map_of_mem _ (Multiset.mem_coe.2 hy)
  have unfit : ∀ c ∈ left, ∀ slot ∈ d.rest.slots, ¬ c.Fits slot.1 := by
    intro c hc slot hslot
    obtain ⟨r, hr, rfl⟩ := Multiset.mem_map.1 (Multiset.mem_of_le refused hc)
    exact h.refused r hr slot hslot
  have tSlot : t.slot ∈ d.rest.slots := filled ▸ Multiset.mem_map_of_mem _ ht
  have tFits : y.hostClass.Fits t.slot.1 := sameClass ▸ fits t ht
  obtain ⟨l, hl, base⟩ : ∃ l ∈ left, l.withoutSubnet = y.hostClass.withoutSubnet := by
    have count := countP_withoutSubnet_eq h'.fits allFit keys hostsUsed y.hostClass.withoutSubnet
    refine Multiset.countP_pos.1 (count ▸ Multiset.countP_pos.2 ⟨_, inRefused, rfl⟩)
  have noOpen : ∀ slot ∈ d.rest.slots, slot.1 ≠ y.hostClass.withoutSubnet := fun slot hslot opened =>
    unfit l hl slot hslot (.inr (opened.trans base.symm))
  have own : t.slot.1 = y.hostClass := tFits.resolve_right (noOpen _ tSlot)
  refine not_mem_refused h'.fits keys hostsUsed (own ▸ (noOpen _ tSlot).symm) ?_ ?_ inRefused
  · intro m hm host
    have host' : m.host.hostClass = y.hostClass := host
    rcases Multiset.mem_add.1 hm with hm | hm
    · by_contra other
      have tried := h.exhausted m (Multiset.mem_coe.1 hm) (host' ▸ other) t.slot.2
      exact tried (host'.trans own.symm ▸ tSlot)
    · have slot : m.slot ∈ d.rest.slots := filled ▸ Multiset.mem_map_of_mem _ hm
      exact ((fits m hm).resolve_right (host' ▸ noOpen _ slot)).trans host'
  · intro isLeft
    exact unfit _ isLeft _ tSlot (.inl own)

end Deal.Settles

end HostRoster
