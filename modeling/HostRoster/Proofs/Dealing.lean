import HostRoster.Correlation
import HostRoster.Proofs.Buckets
import Mathlib.Data.Multiset.Filter
import Mathlib.Order.Basic
import Mathlib.Tactic.Ring

/-!
# Dealing keys to hosts

Keys are dealt greedily, one host after the other: a host takes a key of its own
class before one that leaves the subnet open, and a host that finds neither is
refused. Both ways in which a run ties keys to hosts are such a deal. The greedy
rule serves as many hosts as any assignment of keys to hosts could, so no order of
the hosts strands one that another order would have served.
-/
namespace HostRoster

/-- A slot taken by a host. -/
structure Match where
  host : HostRecord
  slot : HostClass × String

namespace Match

/-- The host may stand for the key. -/
def Fits (m : Match) : Prop := m.host.hostClass.Fits m.slot.1

def hostClass (m : Match) : HostClass := m.host.hostClass

/-- The host under its key. -/
def entry (m : Match) : String × HostRecord := (m.slot.2, m.host)

end Match

/-- What becomes of a list of hosts. -/
structure Deal where
  served : List Match
  refused : List HostRecord
  /-- The keys that are left. -/
  rest : Buckets

namespace Buckets

/-- The class that a take for a host of a class serves from. -/
def source (b : Buckets) (c : HostClass) : HostClass :=
  if b.stack c = [] then c.withoutSubnet else c

/-- Deals a key to every host in turn, as long as there are any that fit. -/
def deal (b : Buckets) : List HostRecord → Deal
  | [] => ⟨[], [], b⟩
  | r :: hosts =>
    match b.take r.hostClass with
    | none =>
      let d := b.deal hosts
      { d with refused := r :: d.refused }
    | some (key, left) =>
      let d := left.deal hosts
      { d with served := ⟨r, b.source r.hostClass, key⟩ :: d.served }

theorem stack_eq_nil {b : Buckets} {c : HostClass} :
    b.stack c = [] ↔ ∀ key, (c, key) ∉ b.slots := by
  simp [mem_slots, List.eq_nil_iff_forall_not_mem]

/-- A take removes one slot of its source. -/
theorem slots_take_source {b left : Buckets} {c : HostClass} {key : String}
    (h : b.take c = some (key, left)) : b.slots = (b.source c, key) ::ₘ left.slots := by
  rw [take_eq, pop] at h
  rw [source]
  cases stacked : b.stack c with
  | nil => exact slots_pop (by simpa [stacked] using h)
  | cons first keys =>
    have own : b.pop c = some (key, left) := by simpa [pop, stacked] using h
    simpa [stacked] using slots_pop own

theorem source_fits (b : Buckets) (c : HostClass) : c.Fits (b.source c) := by
  rw [source]
  split
  · exact .inr rfl
  · exact .inl rfl

end Buckets

/-- How the hosts and the slots of a deal add up, and what the greedy rule leaves behind: a
host that took a key of the open class found its own class exhausted, and a host that
was refused found both exhausted. -/
structure Deal.Settles (d : Deal) (b : Buckets) (hosts : List HostRecord) : Prop where
  hosts : (hosts : Multiset HostRecord) = ↑(d.served.map Match.host) + ↑d.refused
  slots : b.slots = ↑(d.served.map Match.slot) + d.rest.slots
  fits : ∀ m ∈ d.served, m.Fits
  exhausted : ∀ m ∈ d.served, m.slot.1 ≠ m.host.hostClass →
    ∀ key, (m.host.hostClass, key) ∉ d.rest.slots
  refused : ∀ r ∈ d.refused, ∀ slot ∈ d.rest.slots, ¬ r.hostClass.Fits slot.1

theorem Buckets.deal_settles (b : Buckets) (hosts : List HostRecord) :
    (b.deal hosts).Settles b hosts := by
  induction hosts generalizing b with
  | nil => exact ⟨rfl, by simp [deal], by simp [deal], by simp [deal], by simp [deal]⟩
  | cons r hosts ih =>
    cases taken : b.take r.hostClass with
    | none =>
      have d := ih b
      have none_left := take_eq_none.1 taken
      simp only [deal, taken]
      refine ⟨?_, d.slots, d.fits, d.exhausted, ?_⟩
      · rw [← Multiset.cons_coe, ← Multiset.cons_coe, d.hosts, Multiset.add_cons]
      · intro x hx slot hslot fits
        rcases List.mem_cons.1 hx with rfl | hx
        · have before : slot ∈ b.slots := d.slots ▸ Multiset.mem_add.2 (.inr hslot)
          obtain ⟨c, key⟩ := slot
          rcases fits with rfl | rfl
          · exact (none_left key).1 before
          · exact (none_left key).2 before
        · exact d.refused x hx slot hslot fits
    | some p =>
      obtain ⟨key, left⟩ := p
      have d := ih left
      have removed := slots_take_source taken
      simp only [deal, taken]
      refine ⟨?_, ?_, ?_, ?_, d.refused⟩
      · rw [List.map_cons, ← Multiset.cons_coe, ← Multiset.cons_coe, d.hosts, Multiset.cons_add]
      · rw [removed, d.slots, List.map_cons, ← Multiset.cons_coe, Multiset.cons_add]
      · intro m hm
        rcases List.mem_cons.1 hm with rfl | hm
        · exact b.source_fits _
        · exact d.fits m hm
      · intro m hm other k hk
        rcases List.mem_cons.1 hm with rfl | hm
        · have before : (r.hostClass, k) ∈ b.slots := by
            rw [removed, d.slots]
            exact Multiset.mem_cons_of_mem (Multiset.mem_add.2 (.inr hk))
          have stacked : b.stack r.hostClass ≠ [] := fun h => stack_eq_nil.1 h k before
          exact other (if_neg stacked)
        · exact d.exhausted m hm other k hk

theorem countP_le_countP {α : Type} {p q : α → Prop} [DecidablePred p] [DecidablePred q]
    {s : Multiset α} (imp : ∀ a ∈ s, p a → q a) : s.countP p ≤ s.countP q := by
  rw [Multiset.countP_eq_card_filter, Multiset.countP_eq_card_filter]
  refine Multiset.card_le_card (Multiset.le_filter.2 ⟨Multiset.filter_le _ _, fun a ha => ?_⟩)
  obtain ⟨ha, hp⟩ := Multiset.mem_filter.1 ha
  exact imp a ha hp

namespace Deal.Settles

variable {d : Deal} {b : Buckets} {hosts : List HostRecord}

theorem card_hosts (h : d.Settles b hosts) :
    hosts.length = d.served.length + d.refused.length := by
  simpa using congrArg Multiset.card h.hosts

theorem card_slots (h : d.Settles b hosts) :
    b.size = d.served.length + d.rest.size := by
  simpa [Buckets.size_eq_card] using congrArg Multiset.card h.slots

/-- A class some of whose possible keys are left. -/
def Plenty (d : Deal) (c : HostClass) : Prop := ∃ slot ∈ d.rest.slots, c.Fits slot.1

theorem plenty_of_fits {host slot : HostClass} (fits : host.Fits slot) :
    Plenty d slot → Plenty d host
  | ⟨left, hleft, next⟩ => ⟨left, hleft, fits.trans next⟩

theorem plenty_slot_iff (h : d.Settles b hosts) {m : Match} (hm : m ∈ d.served) :
    Plenty d m.slot.1 ↔ Plenty d m.host.hostClass := by
  refine ⟨plenty_of_fits (h.fits m hm), ?_⟩
  rintro ⟨⟨c, key⟩, left, fits⟩
  by_cases own : m.slot.1 = m.host.hostClass
  · exact ⟨_, left, own ▸ fits⟩
  · rcases fits with rfl | rfl
    · exact absurd left (h.exhausted m hm own key)
    · exact ⟨_, left, .inl ((h.fits m hm).resolve_left own).symm⟩

/-- No assignment of keys to hosts of these classes serves more hosts than the deal. -/
theorem card_le (h : d.Settles b hosts) {other : Multiset Match} (fits : ∀ m ∈ other, m.Fits)
    (inHosts : other.map Match.hostClass ≤ (hosts : Multiset HostRecord).map (·.hostClass))
    (inSlots : other.map Match.slot ≤ b.slots) :
    Multiset.card other ≤ d.served.length := by
  classical
  let hostPlenty : Match → Prop := fun m => Plenty d m.host.hostClass
  let slotPlenty : Match → Prop := fun m => Plenty d m.slot.1
  have plenty : other.countP hostPlenty ≤ (d.served : Multiset Match).countP hostPlenty := by
    have served : (d.refused : Multiset HostRecord).countP (fun r => Plenty d r.hostClass) = 0 :=
      Multiset.countP_eq_zero.2 fun r hr ⟨slot, left, fits⟩ => h.refused r hr slot left fits
    calc other.countP hostPlenty
        = (other.map Match.hostClass).countP (Plenty d) := by
          rw [Multiset.countP_map, Multiset.countP_eq_card_filter]
          rfl
      _ ≤ ((hosts : Multiset HostRecord).map (·.hostClass)).countP (Plenty d) :=
          Multiset.countP_le_of_le _ inHosts
      _ = (hosts : Multiset HostRecord).countP fun r => Plenty d r.hostClass := by
          rw [Multiset.countP_map, Multiset.countP_eq_card_filter]
      _ = (d.served : Multiset Match).countP hostPlenty := by
          rw [h.hosts, Multiset.countP_add, served, Nat.add_zero, ← Multiset.map_coe,
            Multiset.countP_map, Multiset.countP_eq_card_filter]
  have scarce : other.countP (fun m => ¬ hostPlenty m) ≤
      (d.served : Multiset Match).countP (fun m => ¬ hostPlenty m) := by
    have none_left : d.rest.slots.countP (fun slot => ¬ Plenty d slot.1) = 0 :=
      Multiset.countP_eq_zero.2 fun slot left gone => gone ⟨slot, left, .inl rfl⟩
    calc other.countP (fun m => ¬ hostPlenty m)
        ≤ other.countP (fun m => ¬ slotPlenty m) :=
          countP_le_countP fun m hm gone left => gone (plenty_of_fits (fits m hm) left)
      _ = (other.map Match.slot).countP fun slot => ¬ Plenty d slot.1 := by
          rw [Multiset.countP_map, Multiset.countP_eq_card_filter]
      _ ≤ b.slots.countP fun slot => ¬ Plenty d slot.1 := Multiset.countP_le_of_le _ inSlots
      _ = (d.served : Multiset Match).countP (fun m => ¬ slotPlenty m) := by
          rw [h.slots, Multiset.countP_add, none_left, Nat.add_zero, ← Multiset.map_coe,
            Multiset.countP_map, Multiset.countP_eq_card_filter]
      _ = (d.served : Multiset Match).countP (fun m => ¬ hostPlenty m) :=
          Multiset.countP_congr rfl fun m hm => by
            simpa [hostPlenty, slotPlenty] using not_congr (h.plenty_slot_iff hm)
  calc Multiset.card other
      = other.countP hostPlenty + other.countP (fun m => ¬ hostPlenty m) :=
        Multiset.card_eq_countP_add_countP _ _
    _ ≤ (d.served : Multiset Match).countP hostPlenty +
          (d.served : Multiset Match).countP (fun m => ¬ hostPlenty m) :=
        Nat.add_le_add plenty scarce
    _ = d.served.length := by rw [← Multiset.card_eq_countP_add_countP, Multiset.coe_card]

/-- If all hosts can be given keys at once, the deal refuses none. -/
theorem refused_eq_nil (h : d.Settles b hosts) {other : Multiset Match} (fits : ∀ m ∈ other, m.Fits)
    (inHosts : other.map Match.host = hosts) (inSlots : other.map Match.slot ≤ b.slots) :
    d.refused = [] := by
  have classes := congrArg (Multiset.map fun r : HostRecord => r.hostClass) inHosts
  rw [Multiset.map_map] at classes
  have most := h.card_le fits classes.le inSlots
  have all : Multiset.card other = hosts.length := by
    simpa using congrArg Multiset.card inHosts
  have total := h.card_hosts
  exact List.eq_nil_of_length_eq_zero (by omega)

end Deal.Settles

/-- Keys are assigned exactly when every host is named and none is refused in the deal. -/
theorem assignKeys_eq_ok {b : Buckets} {mapped result : HostMap} {hosts : List HostRecord} :
    assignKeys b mapped hosts = .ok result ↔
      (b.deal hosts).refused = [] ∧ (∀ r ∈ hosts, r.name.isSome) ∧
        result = mapped.insertAll ((b.deal hosts).served.map Match.entry) := by
  induction hosts generalizing b mapped with
  | nil =>
    simp only [assignKeys, Buckets.deal, Except.ok.injEq, List.not_mem_nil, false_imp_iff,
      implies_true, true_and]
    exact eq_comm
  | cons r hosts ih =>
    cases taken : b.take r.hostClass with
    | none => simp [assignKeys, Buckets.deal, taken]
    | some p =>
      cases named : r.name with
      | none => simp [assignKeys, Buckets.deal, taken, named]
      | some name => simp [assignKeys, Buckets.deal, taken, named, ih, Match.entry]

/-- The host's name is one of the retired names. -/
def HostRecord.IsRetired (retired : List String) (r : HostRecord) : Prop :=
  r.name.any retired.contains = true

instance (retired : List String) (r : HostRecord) : Decidable (r.IsRetired retired) :=
  inferInstanceAs (Decidable (_ = _))

theorem HostRecord.isRetired_iff {retired : List String} {r : HostRecord} :
    r.IsRetired retired ↔ ∃ n, r.name = some n ∧ n ∈ retired := by
  rw [IsRetired, Option.any_eq_true]
  simp only [List.contains_iff_mem]

/-- The hosts that may be adopted. -/
def eligible (retired : List String) (orphans : List HostRecord) : List HostRecord :=
  orphans.filter fun r => ¬ r.IsRetired retired

theorem mem_eligible {retired : List String} {orphans : List HostRecord} {r : HostRecord} :
    r ∈ eligible retired orphans ↔ r ∈ orphans ∧ ¬ r.IsRetired retired := by
  simp [eligible]

/-- Adoption deals the keys to the orphans whose names are not retired. -/
theorem adoptEach_eq_deal (retired : List String) (b : Buckets) (orphans : List HostRecord) :
    (adoptEach retired b orphans).2 =
        (b.deal (eligible retired orphans)).served.map (·.slot.2) ∧
      (adoptEach retired b orphans).1.filterMap CorrelatedHost.match? =
        (b.deal (eligible retired orphans)).served.map Match.entry ∧
      ((adoptEach retired b orphans).1.filterMap CorrelatedHost.orphan?).Perm
        ((b.deal (eligible retired orphans)).refused ++
          orphans.filter fun r => r.IsRetired retired) := by
  induction orphans generalizing b with
  | nil => exact ⟨rfl, rfl, .refl _⟩
  | cons r orphans ih =>
    by_cases out : r.IsRetired retired
    · obtain ⟨keys, matched, orphaned⟩ := ih b
      have skipped : eligible retired (r :: orphans) = eligible retired orphans := by
        simp [eligible, out]
      have held : r.name.any retired.contains = true := out
      simp only [adoptEach, held, if_true, skipped, List.filterMap_cons, CorrelatedHost.match?,
        CorrelatedHost.orphan?, List.filter_cons, out, decide_true]
      exact ⟨keys, matched, (orphaned.cons r).trans List.perm_middle.symm⟩
    · have offered : eligible retired (r :: orphans) = r :: eligible retired orphans := by
        simp [eligible, out]
      have free : r.name.any retired.contains = false := Bool.eq_false_iff.2 out
      cases taken : b.take r.hostClass with
      | none =>
        obtain ⟨keys, matched, orphaned⟩ := ih b
        simp only [adoptEach, free, Bool.false_eq_true, if_false, taken, offered, Buckets.deal,
          List.filterMap_cons, CorrelatedHost.match?, CorrelatedHost.orphan?, List.filter_cons,
          out, decide_false, List.cons_append]
        exact ⟨keys, matched, orphaned.cons r⟩
      | some p =>
        obtain ⟨keys, matched, orphaned⟩ := ih p.2
        simp only [adoptEach, free, Bool.false_eq_true, if_false, taken, offered, Buckets.deal,
          List.filterMap_cons, CorrelatedHost.match?, CorrelatedHost.orphan?, List.filter_cons,
          out, decide_false, List.map_cons]
        exact ⟨congrArg _ keys, congrArg _ matched, orphaned⟩

end HostRoster
