import HostRoster.Bucket
import HostRoster.Proofs.KeyMap
import Mathlib.Data.Multiset.AddSub
import Mathlib.Data.Multiset.MapFold

/-!
# Buckets as a bag of slots

The waiting keys of all classes form one bag of slots, a slot being a key with its
class. Putting a key in adds a slot and taking a key removes one. All that a later
argument needs to know about a take is which class it served from.
-/
namespace HostRoster

namespace HostClass

instance : Std.LawfulEqOrd HostClass where
  eq_of_compare {a b} h := by
    have h : (compareLex (compareOn zone)
        (compareLex (compareOn subnetId) (compareOn assignPublicIp))) a b = .eq := h
    simp only [compareLex_eq_eq, compareOn, Std.compare_eq_iff_eq] at h
    obtain ⟨hz, hs, hp⟩ := h
    cases a; cases b
    simp_all

/-- A host of the first class may stand for a key of the second: the classes agree, or
differ only in that the key leaves the subnet open. -/
def Fits (host slot : HostClass) : Prop := slot = host ∨ slot = host.withoutSubnet

instance (host slot : HostClass) : Decidable (host.Fits slot) :=
  inferInstanceAs (Decidable (_ ∨ _))

theorem withoutSubnet_eq_self {c : HostClass} (h : c.subnetId = none) : c.withoutSubnet = c := by
  cases c
  simp_all [withoutSubnet]

theorem Fits.withoutSubnet_eq {host slot : HostClass} (h : host.Fits slot) :
    slot.withoutSubnet = host.withoutSubnet := by
  rcases h with rfl | rfl <;> rfl

theorem Fits.trans {host slot other : HostClass} (h : host.Fits slot) (next : slot.Fits other) :
    host.Fits other := by
  rcases next with rfl | rfl
  · exact h
  · exact .inr h.withoutSubnet_eq

end HostClass

theorem HostSpec.fits_iff {r s : HostSpec} :
    r.hostClass.Fits s.hostClass ↔ r.zone = s.zone ∧ r.assignPublicIp = s.assignPublicIp ∧
      (s.subnetId = none ∨ r.subnetId = s.subnetId) := by
  simp only [HostClass.Fits, HostSpec.hostClass, HostClass.withoutSubnet, HostClass.mk.injEq]
  constructor
  · rintro (⟨hz, hs, hp⟩ | ⟨hz, hs, hp⟩)
    · exact ⟨hz.symm, hp.symm, .inr hs.symm⟩
    · exact ⟨hz.symm, hp.symm, .inl hs⟩
  · rintro ⟨hz, hp, hs | hs⟩
    · exact .inr ⟨hz.symm, hs, hp.symm⟩
    · exact .inl ⟨hz.symm, hs.symm, hp.symm⟩

namespace Buckets

/-- The waiting keys with their classes. -/
def slots (b : Buckets) : Multiset (HostClass × String) :=
  ↑(b.byClass.entries.flatMap fun e => e.2.map (e.1, ·))

@[simp] theorem slots_empty : empty.slots = 0 := rfl

theorem mem_slots {b : Buckets} {c : HostClass} {key : String} :
    (c, key) ∈ b.slots ↔ key ∈ b.stack c := by
  simp only [slots, Multiset.mem_coe, List.mem_flatMap, List.mem_map, Prod.mk.injEq]
  constructor
  · rintro ⟨e, he, k, hk, rfl, rfl⟩
    have found : b.byClass.get? e.1 = some e.2 := KeyMap.get?_eq_some.2 he
    simpa [stack, found] using hk
  · intro h
    cases found : b.byClass.get? c with
    | none => simp [stack, found] at h
    | some keys =>
      exact ⟨(c, keys), KeyMap.get?_eq_some.1 found, key, by simpa [stack, found] using h, rfl, rfl⟩

/-- A new stack for a class replaces the slots of that class and no others. -/
theorem slots_insert (b : Buckets) (c : HostClass) (keys : List String) :
    (mk (b.byClass.insert c keys)).slots =
      ↑(keys.map (c, ·)) + (mk (b.byClass.erase c)).slots :=
  Quotient.sound ((KeyMap.perm_insert_erase b.byClass c keys).flatMap_right _)

theorem slots_eq_stack (b : Buckets) (c : HostClass) :
    b.slots = ↑((b.stack c).map (c, ·)) + (mk (b.byClass.erase c)).slots := by
  cases found : b.byClass.get? c with
  | none => simp [stack, found, KeyMap.erase_of_not_mem (KeyMap.get?_eq_none.1 found)]
  | some keys =>
    rw [stack, found]
    exact Quotient.sound ((KeyMap.perm_erase (KeyMap.get?_eq_some.1 found)).flatMap_right _)

@[simp] theorem slots_push (b : Buckets) (c : HostClass) (key : String) :
    (b.push c key).slots = (c, key) ::ₘ b.slots := by
  rw [push, slots_insert, b.slots_eq_stack c]
  rfl

theorem slots_pop {b rest : Buckets} {c : HostClass} {key : String}
    (h : b.pop c = some (key, rest)) : b.slots = (c, key) ::ₘ rest.slots := by
  rw [pop] at h
  cases stacked : b.stack c with
  | nil => simp [stacked] at h
  | cons first keys =>
    simp only [stacked, Option.some.injEq, Prod.mk.injEq] at h
    obtain ⟨rfl, rfl⟩ := h
    rw [slots_insert, b.slots_eq_stack c, stacked]
    rfl

theorem pop_eq_none {b : Buckets} {c : HostClass} :
    b.pop c = none ↔ ∀ key, (c, key) ∉ b.slots := by
  simp only [mem_slots, pop]
  cases b.stack c with
  | nil => simp
  | cons first keys => simpa using ⟨first, by simp⟩

/-- The second try of a take may be made whether or not the host has a subnet. -/
theorem take_eq (b : Buckets) (c : HostClass) :
    b.take c = (b.pop c).or (b.pop c.withoutSubnet) := by
  cases subnet : c.subnetId with
  | some subnet => simp [take, subnet]
  | none => simp [take, subnet, HostClass.withoutSubnet_eq_self subnet]

theorem take_eq_none {b : Buckets} {c : HostClass} :
    b.take c = none ↔ ∀ key, (c, key) ∉ b.slots ∧ (c.withoutSubnet, key) ∉ b.slots := by
  rw [take_eq, Option.or_eq_none_iff, pop_eq_none, pop_eq_none, forall_and]

theorem size_eq_card (b : Buckets) : b.size = Multiset.card b.slots := by
  simp [size, slots, KeyMap.values, List.length_flatMap, List.length_flatten, Function.comp_def]

theorem isEmpty_iff {b : Buckets} : b.isEmpty = true ↔ b.slots = 0 := by
  simp [isEmpty, slots, KeyMap.values]

/-- The buckets of some keys hold each of them under its class. -/
theorem slots_foldl_push (entries : List (String × HostSpec)) (b : Buckets) :
    (entries.foldl (fun b e => b.push e.2.hostClass e.1) b).slots =
      ↑(entries.map fun e => (e.2.hostClass, e.1)) + b.slots := by
  induction entries generalizing b with
  | nil => simp
  | cons e rest ih =>
    rw [List.foldl_cons, ih, slots_push, List.map_cons, ← Multiset.cons_coe,
      Multiset.add_cons, Multiset.cons_add]

theorem slots_ofDeclaration (d : Declaration) :
    (ofDeclaration d).slots = ↑(d.entries.map fun e => (e.2.hostClass, e.1)) := by
  rw [ofDeclaration, slots_foldl_push, slots_empty, Multiset.add_zero]

end Buckets

end HostRoster
