import HostRoster.Proofs.Dealing

/-!
# What a correlation accounts for

However keys and hosts are tied to each other, no key and no named host gets lost:
the matched and the pending keys are the keys of the map, and the matched hosts and
the orphans are the named hosts of the listing, each once.
-/
namespace HostRoster

theorem HostRecord.name_eq_some {r : HostRecord} {n : String} :
    r.name = some n ↔ r.assignedName = some n ∧ n ≠ "" := by
  simp [HostRecord.name, Option.filter_eq_some_iff]

theorem HostRecord.assignedName_eq {r : HostRecord} (h : r.name.isSome) :
    r.assignedName = r.name := by
  obtain ⟨n, name⟩ := Option.isSome_iff_exists.1 h
  rw [name]
  exact (name_eq_some.1 name).1

/-- Every host has a name, and no two have the same. -/
structure WellNamed (hosts : Multiset HostRecord) : Prop where
  named : ∀ r ∈ hosts, r.name.isSome
  distinct : (hosts.map HostRecord.name).Nodup

namespace WellNamed

variable {hosts : Multiset HostRecord}

theorem of_le {fewer : Multiset HostRecord} (h : WellNamed hosts) (le : fewer ≤ hosts) :
    WellNamed fewer :=
  ⟨fun r hr => h.named r (Multiset.mem_of_le le hr),
    Multiset.nodup_of_le (Multiset.map_le_map le) h.distinct⟩

theorem cons_iff {r : HostRecord} :
    WellNamed (r ::ₘ hosts) ↔ r.name.isSome ∧ (∀ other ∈ hosts, other.name ≠ r.name) ∧
      WellNamed hosts := by
  constructor
  · rintro ⟨named, distinct⟩
    rw [Multiset.map_cons, Multiset.nodup_cons] at distinct
    exact ⟨named r (Multiset.mem_cons_self ..),
      fun other ho same => distinct.1 (Multiset.mem_map.2 ⟨other, ho, same⟩),
      fun other ho => named other (Multiset.mem_cons_of_mem ho), distinct.2⟩
  · rintro ⟨named, isNew, rest⟩
    refine ⟨fun other ho => ?_, ?_⟩
    · rcases Multiset.mem_cons.1 ho with rfl | ho
      · exact named
      · exact rest.named other ho
    · rw [Multiset.map_cons, Multiset.nodup_cons]
      refine ⟨fun known => ?_, rest.distinct⟩
      obtain ⟨other, ho, same⟩ := Multiset.mem_map.1 known
      exact isNew other ho same

theorem eq_of_name {a b : HostRecord} (h : WellNamed hosts) (ha : a ∈ hosts) (hb : b ∈ hosts)
    (same : a.name = b.name) : a = b :=
  Multiset.inj_on_of_nodup_map h.distinct a ha b hb same

end WellNamed

theorem mem_byName {listed : List HostRecord} {n : String} {r : HostRecord}
    (h : (n, r) ∈ (byName listed).entries) : r ∈ listed ∧ r.name = some n := by
  obtain ⟨x, hx, named⟩ := List.mem_filterMap.1 (KeyMap.mem_of_mem_ofList h)
  obtain ⟨m, hm, eq⟩ := Option.map_eq_some_iff.1 named
  obtain ⟨rfl, rfl⟩ := Prod.mk.inj eq
  exact ⟨hx, hm⟩

theorem mem_keys_byName {listed : List HostRecord} {n : String} :
    n ∈ (byName listed).keys ↔ ∃ r ∈ listed, r.name = some n := by
  simp only [byName, KeyMap.mem_keys_ofList, List.map_filterMap, List.mem_filterMap,
    Option.map_map, Option.map_eq_some_iff, Function.comp_apply, exists_eq_right]

/-- The named hosts of a listing have names, and no two have the same. -/
theorem wellNamed_byName (listed : List HostRecord) :
    WellNamed ((byName listed).values : Multiset HostRecord) := by
  have names : (byName listed).values.map HostRecord.name = (byName listed).keys.map some := by
    simp only [KeyMap.values, KeyMap.keys, List.map_map]
    exact List.map_congr_left fun e he => (mem_byName he).2
  refine ⟨fun r hr => ?_, ?_⟩
  · obtain ⟨e, he, rfl⟩ := List.mem_map.1 hr
    exact Option.isSome_iff_exists.2 ⟨_, (mem_byName he).2⟩
  · rw [Multiset.map_coe, names]
    exact (KeyMap.nodup_keys _).map (Option.some_injective _)

/-- A listing of distinctly named hosts is taken over as it is. -/
theorem values_byName {listed : List HostRecord} (h : WellNamed listed) :
    (byName listed).values.Perm listed := by
  have keyed : listed.filterMap (fun r => r.name.map (·, r)) =
      listed.map fun r => (r.name.getD "", r) := by
    rw [← List.filterMap_eq_map]
    refine List.filterMap_congr fun r hr => ?_
    obtain ⟨n, named⟩ := Option.isSome_iff_exists.1 (h.named r hr)
    simp [named]
  have distinct : ((listed.map fun r => (r.name.getD "", r)).map (·.1)).Nodup := by
    rw [List.map_map, List.nodup_map_iff_inj_on (List.Nodup.of_map _ h.distinct)]
    intro a ha b hb same
    obtain ⟨n, hn⟩ := Option.isSome_iff_exists.1 (h.named a ha)
    obtain ⟨m, hm⟩ := Option.isSome_iff_exists.1 (h.named b hb)
    refine h.eq_of_name ha hb ?_
    simpa [hn, hm] using same
  have placed := (KeyMap.perm_ofList distinct).map Prod.snd
  rw [List.map_map] at placed
  rw [byName, keyed, KeyMap.values]
  exact placed.trans (.of_eq (List.map_id' listed))

namespace Correlation

/-- The matched hosts with their keys, in order. -/
def pairs (c : Correlation) : List (String × HostRecord) :=
  c.hosts.filterMap CorrelatedHost.match?

/-- Every key of the map and every named host of the listing stands in the correlation
once. -/
structure Accounts (c : Correlation) (wanted : HostMap) (listed : List HostRecord) : Prop where
  keys : (c.pairs.map Prod.fst ++ c.pending).Perm wanted.keys
  records : (c.pairs.map Prod.snd ++ c.orphans).Perm (byName listed).values

namespace Accounts

variable {c : Correlation} {wanted : HostMap} {listed : List HostRecord}

theorem nodup_keys (h : c.Accounts wanted listed) : (c.pairs.map Prod.fst ++ c.pending).Nodup :=
  h.keys.nodup_iff.2 wanted.nodup_keys

theorem perm_matched (h : c.Accounts wanted listed) : c.matched.entries.Perm c.pairs :=
  KeyMap.perm_ofList (List.nodup_append.1 h.nodup_keys).1

theorem mem_matched (h : c.Accounts wanted listed) {e : String × HostRecord} :
    e ∈ c.matched.entries ↔ e ∈ c.pairs := h.perm_matched.mem_iff

/-- The keys without a host are the pending ones. -/
theorem not_mem_matched (h : c.Accounts wanted listed) {key : String} (hk : key ∈ wanted.keys) :
    key ∉ c.matched.keys ↔ key ∈ c.pending := by
  have split := h.keys.mem_iff.2 hk
  have apart := (List.nodup_append.1 h.nodup_keys).2.2
  have matched_iff : key ∈ c.matched.keys ↔ key ∈ c.pairs.map Prod.fst :=
    (h.perm_matched.map Prod.fst).mem_iff
  rw [matched_iff]
  rcases List.mem_append.1 split with matched | pending
  · exact ⟨fun none => absurd matched none, fun pending => absurd rfl (apart _ matched _ pending)⟩
  · exact ⟨fun _ => pending, fun _ matched => apart _ matched _ pending rfl⟩

theorem matched_subset (h : c.Accounts wanted listed) {key : String}
    (hk : key ∈ c.matched.keys) : key ∈ wanted.keys :=
  h.keys.mem_iff.1 (List.mem_append_left _ ((h.perm_matched.map Prod.fst).mem_iff.1 hk))

theorem wellNamed (h : c.Accounts wanted listed) :
    WellNamed (↑(c.pairs.map Prod.snd) + ↑c.orphans) := by
  have all : (↑(c.pairs.map Prod.snd) + ↑c.orphans : Multiset HostRecord) =
      ↑(byName listed).values := Quotient.sound h.records
  exact all ▸ wellNamed_byName listed

theorem wellNamed_matched (h : c.Accounts wanted listed) :
    WellNamed (c.matched.values : Multiset HostRecord) := by
  have values : c.matched.values.Perm (c.pairs.map Prod.snd) := h.perm_matched.map Prod.snd
  rw [Multiset.coe_eq_coe.2 values]
  exact h.wellNamed.of_le (Multiset.le_add_right _ _)

theorem mem_listed (h : c.Accounts wanted listed) {r : HostRecord}
    (hr : r ∈ c.pairs.map Prod.snd ++ c.orphans) : r ∈ listed := by
  obtain ⟨e, he, rfl⟩ := List.mem_map.1 (h.records.mem_iff.1 hr)
  exact (mem_byName he).1

end Accounts

end Correlation

section ByName

/-- A key either takes the host of its name out of the listing or stays pending. -/
theorem matchNames_cons (named : KeyMap String HostRecord) (key : String) (wanted : HostRecord)
    (rest : List (String × HostRecord)) :
    (∃ n r, wanted.name = some n ∧ (n, r) ∈ named.entries ∧
      matchNames named ((key, wanted) :: rest) =
        (.matched key r :: (matchNames (named.erase n) rest).1,
          (matchNames (named.erase n) rest).2)) ∨
    ((∀ n, wanted.name = some n → n ∉ named.keys) ∧
      matchNames named ((key, wanted) :: rest) =
        ((matchNames named rest).1, key :: (matchNames named rest).2)) := by
  cases name : wanted.name with
  | none => exact .inr ⟨by simp, by simp [matchNames, name]⟩
  | some n =>
    cases found : named.get? n with
    | none =>
      refine .inr ⟨?_, by simp [matchNames, name, found]⟩
      rintro m ⟨rfl⟩
      exact KeyMap.get?_eq_none.1 found
    | some r =>
      exact .inl ⟨n, r, rfl, KeyMap.get?_eq_some.1 found, by simp [matchNames, name, found]⟩

variable (named : KeyMap String HostRecord) (entries : List (String × HostRecord))

theorem matchNames_keys :
    (((matchNames named entries).1.filterMap CorrelatedHost.match?).map Prod.fst ++
      (matchNames named entries).2).Perm (entries.map Prod.fst) := by
  induction entries generalizing named with
  | nil => simp [matchNames, CorrelatedHost.match?]
  | cons e rest ih =>
    rcases matchNames_cons named e.1 e.2 rest with ⟨n, r, -, -, eq⟩ | ⟨-, eq⟩
    · rw [eq]
      exact (ih (named.erase n)).cons e.1
    · rw [eq]
      exact List.perm_middle.trans ((ih named).cons e.1)

theorem matchNames_records :
    (((matchNames named entries).1.filterMap CorrelatedHost.match?).map Prod.snd ++
      (matchNames named entries).1.filterMap CorrelatedHost.orphan?).Perm named.values := by
  induction entries generalizing named with
  | nil =>
    simp [matchNames, List.filterMap_map, Function.comp_def, CorrelatedHost.match?,
      CorrelatedHost.orphan?]
  | cons e rest ih =>
    rcases matchNames_cons named e.1 e.2 rest with ⟨n, r, -, listed, eq⟩ | ⟨-, eq⟩
    · rw [eq]
      exact ((ih (named.erase n)).cons r).trans ((KeyMap.perm_erase listed).map Prod.snd).symm
    · rw [eq]
      exact ih named

/-- A key is matched to the listed host of its own name. -/
theorem matchNames_pairs {key : String} {r : HostRecord}
    (h : (key, r) ∈ (matchNames named entries).1.filterMap CorrelatedHost.match?) :
    ∃ wanted n, (key, wanted) ∈ entries ∧ wanted.name = some n ∧ (n, r) ∈ named.entries := by
  induction entries generalizing named with
  | nil => simp [matchNames, CorrelatedHost.match?] at h
  | cons e rest ih =>
    rcases matchNames_cons named e.1 e.2 rest with ⟨n, r', name, listed, eq⟩ | ⟨-, eq⟩
    · rw [eq] at h
      rcases List.mem_cons.1 h with h | h
      · obtain ⟨rfl, rfl⟩ := Prod.mk.inj h
        exact ⟨e.2, n, .head _, name, listed⟩
      · obtain ⟨wanted, m, he, hm, left⟩ := ih _ h
        exact ⟨wanted, m, .tail _ he, hm, (KeyMap.mem_erase.1 left).1⟩
    · rw [eq] at h
      obtain ⟨wanted, m, he, hm, left⟩ := ih _ h
      exact ⟨wanted, m, .tail _ he, hm, left⟩

/-- A pending key has no name, or none of a listed host, or shares its name with another. -/
theorem matchNames_pending {key : String} {wanted : HostRecord} {n : String}
    (alone : entries.Pairwise fun a b => a.2.name = b.2.name → a.2.name = none)
    (distinct : (entries.map Prod.fst).Nodup)
    (h : key ∈ (matchNames named entries).2) (he : (key, wanted) ∈ entries)
    (name : wanted.name = some n) : n ∉ named.keys := by
  induction entries generalizing named with
  | nil => simp at he
  | cons e rest ih =>
    obtain ⟨first, others⟩ := List.pairwise_cons.1 alone
    obtain ⟨new, nodup⟩ := List.nodup_cons.1 distinct
    rcases matchNames_cons named e.1 e.2 rest with ⟨m, r, hm, listed, eq⟩ | ⟨absent, eq⟩
    · rw [eq] at h
      rcases List.mem_cons.1 he with rfl | he
      · have pending := (matchNames_keys (named.erase m) rest).mem_iff.1
          (List.mem_append_right _ h)
        exact absurd pending new
      · intro hn
        refine ih (named.erase m) others nodup h he ?_
        obtain ⟨r', hr'⟩ := KeyMap.mem_keys.1 hn
        refine KeyMap.mem_keys.2 ⟨r', KeyMap.mem_erase.2 ⟨hr', ?_⟩⟩
        rintro rfl
        have clash := first _ he (hm.trans name.symm)
        simp [hm] at clash
    · rw [eq] at h
      rcases List.mem_cons.1 he with rfl | he
      · exact absent n name
      · rcases List.mem_cons.1 h with rfl | h
        · exact absurd (List.mem_map_of_mem he) new
        · exact ih named others nodup h he

/-- An orphan bears no name that a key bears. -/
theorem matchNames_orphans {r : HostRecord} {n : String}
    (h : r ∈ (matchNames named entries).1.filterMap CorrelatedHost.orphan?)
    (proper : ∀ e ∈ named.entries, e.2.name = some e.1)
    (name : r.name = some n) {e : String × HostRecord} (he : e ∈ entries) :
    e.2.name ≠ some n := by
  induction entries generalizing named with
  | nil => simp at he
  | cons f rest ih =>
    have kept : ∀ m, ∀ e ∈ (named.erase m).entries, e.2.name = some e.1 := fun m e he =>
      proper e (KeyMap.mem_erase.1 he).1
    rcases matchNames_cons named f.1 f.2 rest with ⟨m, r', hm, listed, eq⟩ | ⟨absent, eq⟩
    · rw [eq] at h
      rcases List.mem_cons.1 he with rfl | he
      · have left : r ∈ (named.erase m).values :=
          (matchNames_records (named.erase m) rest).mem_iff.1 (List.mem_append_right _ h)
        obtain ⟨g, hg, rfl⟩ := List.mem_map.1 left
        intro same
        have eq := (kept m g hg).symm.trans (name.trans (same.symm.trans hm))
        exact (KeyMap.mem_erase.1 hg).2 (Option.some.inj eq)
      · exact ih (named.erase m) h (kept m) he
    · rw [eq] at h
      rcases List.mem_cons.1 he with rfl | he
      · intro same
        have left : r ∈ named.values :=
          (matchNames_records named rest).mem_iff.1 (List.mem_append_right _ h)
        obtain ⟨g, hg, rfl⟩ := List.mem_map.1 left
        have eq := (proper g hg).symm.trans name
        exact absent n same (Option.some.inj eq ▸ KeyMap.mem_keys_of_mem hg)
      · exact ih named h proper he

end ByName

theorem correlateByName_accounts (wanted : HostMap) (listed : List HostRecord) :
    (correlateByName wanted listed).Accounts wanted listed :=
  ⟨matchNames_keys _ _, matchNames_records _ _⟩

section Adoption

/-- The pending keys without a name, each with its class. -/
def openSlots (pending : List String) (desired : HostMap) : List (HostClass × String) :=
  pending.filterMap fun key => (desired.get? key).bind fun wanted =>
    if wanted.name.isNone then some (wanted.hostClass, key) else none

theorem mem_openSlots {pending : List String} {desired : HostMap} {slot : HostClass × String} :
    slot ∈ openSlots pending desired ↔ slot.2 ∈ pending ∧
      ∃ wanted, (slot.2, wanted) ∈ desired.entries ∧ wanted.name = none ∧
        slot.1 = wanted.hostClass := by
  obtain ⟨c, k⟩ := slot
  simp only [openSlots, List.mem_filterMap, Option.bind_eq_some_iff, Option.isNone_iff_eq_none,
    Option.ite_none_right_eq_some, Option.some.injEq, Prod.mk.injEq, KeyMap.get?_eq_some]
  constructor
  · rintro ⟨key, pending, wanted, he, name, rfl, rfl⟩
    exact ⟨pending, wanted, he, name, rfl⟩
  · rintro ⟨pending, wanted, he, name, rfl⟩
    exact ⟨k, pending, wanted, he, name, rfl, rfl⟩

theorem openSlots_keys (pending : List String) (desired : HostMap) :
    ((openSlots pending desired).map Prod.snd).Sublist pending := by
  induction pending with
  | nil => exact .refl _
  | cons key rest ih =>
    rw [openSlots, List.filterMap_cons]
    split
    next => exact ih.cons key
    next slot found =>
      obtain ⟨wanted, -, h⟩ := Option.bind_eq_some_iff.1 found
      split at h
      · obtain rfl := Option.some.inj h
        exact ih.cons_cons key
      · simp at h

theorem slots_unnamedBuckets (pending : List String) (desired : HostMap) :
    (unnamedBuckets pending desired).slots = ↑(openSlots pending desired) := by
  rw [unnamedBuckets, ← Multiset.add_zero (Multiset.ofList _), ← Buckets.slots_empty]
  generalize Buckets.empty = b
  induction pending generalizing b with
  | nil => simp [openSlots]
  | cons key rest ih =>
    rw [List.foldl_cons, ih]
    cases found : desired.get? key with
    | none => simp [openSlots, found]
    | some wanted =>
      cases name : wanted.name with
      | none => simp [openSlots, found, name, ← Multiset.cons_coe]
      | some n => simp [openSlots, found, name]

namespace Correlation

/-- The orphans by name, in the order in which they are offered. -/
def offered (c : Correlation) : List HostRecord :=
  c.orphans.mergeSort fun a b => (compare a.name b.name).isLE

theorem perm_offered (c : Correlation) : c.offered.Perm c.orphans := List.mergeSort_perm ..

/-- The deal by which pending keys without a name take over orphans. -/
def adoption (c : Correlation) (desired : HostMap) (retired : List String) : Deal :=
  (unnamedBuckets c.pending desired).deal (eligible retired c.offered)

variable (c : Correlation) (desired : HostMap) (retired : List String)

theorem adoption_settles : (c.adoption desired retired).Settles
    (unnamedBuckets c.pending desired) (eligible retired c.offered) :=
  Buckets.deal_settles _ _

/-- Without an open slot the deal serves nobody. -/
theorem adoption_served_of_isEmpty (h : (unnamedBuckets c.pending desired).isEmpty = true) :
    (c.adoption desired retired).served = [] := by
  have total := (c.adoption_settles desired retired).card_slots
  rw [Buckets.size_eq_card, Buckets.isEmpty_iff.1 h, Multiset.card_zero] at total
  exact List.eq_nil_of_length_eq_zero (by omega)

theorem offered_split : (c.offered).Perm ((c.adoption desired retired).served.map Match.host ++
    ((c.adoption desired retired).refused ++ c.offered.filter fun r => r.IsRetired retired)) := by
  have dealt : (eligible retired c.offered).Perm
      ((c.adoption desired retired).served.map Match.host ++
        (c.adoption desired retired).refused) :=
    Multiset.coe_eq_coe.1 (c.adoption_settles desired retired).hosts
  have parts := (List.filter_append_perm (fun r => !decide (r.IsRetired retired)) c.offered).symm
  simp only [Bool.not_not] at parts
  simp only [eligible, decide_not] at dealt
  refine parts.trans ((dealt.append_right _).trans ?_)
  rw [List.append_assoc]

theorem pairs_adoptOrphans : (c.adoptOrphans desired retired).pairs =
    c.pairs ++ (c.adoption desired retired).served.map Match.entry := by
  rw [adoptOrphans]
  split
  next none_open => simp [c.adoption_served_of_isEmpty desired retired none_open]
  next some_open =>
    have kept : (c.hosts.filter (·.key?.isSome)).filterMap CorrelatedHost.match? = c.pairs := by
      rw [List.filterMap_filter, pairs]
      exact List.filterMap_congr fun h _ => by cases h <;> rfl
    simp only [pairs, List.filterMap_append, kept]
    rw [(adoptEach_eq_deal retired _ _).2.1]
    rfl

theorem pending_adoptOrphans : (c.adoptOrphans desired retired).pending =
    c.pending.filter fun key => key ∉ (c.adoption desired retired).served.map (·.slot.2) := by
  rw [adoptOrphans]
  split
  next none_open => simp [c.adoption_served_of_isEmpty desired retired none_open]
  next some_open =>
    simp only [(adoptEach_eq_deal retired _ _).1]
    refine List.filter_congr fun key _ => ?_
    rw [Bool.eq_iff_iff]
    simp [adoption, offered]

theorem adopted_adoptOrphans : (c.adoptOrphans desired retired).adopted =
    c.adopted ++ (c.adoption desired retired).served.map (·.slot.2) := by
  rw [adoptOrphans]
  split
  next none_open => simp [c.adoption_served_of_isEmpty desired retired none_open]
  next some_open => exact congrArg (c.adopted ++ ·) (adoptEach_eq_deal retired _ _).1

theorem orphans_adoptOrphans : (c.adoptOrphans desired retired).orphans.Perm
    ((c.adoption desired retired).refused ++ c.offered.filter fun r => r.IsRetired retired) := by
  rw [adoptOrphans]
  split
  next none_open =>
    have split := c.offered_split desired retired
    rw [c.adoption_served_of_isEmpty desired retired none_open] at split
    exact c.perm_offered.symm.trans split
  next some_open =>
    have dropped : (c.hosts.filter (·.key?.isSome)).filterMap CorrelatedHost.orphan? = [] := by
      rw [List.filterMap_filter, List.filterMap_eq_nil_iff]
      intro h _
      cases h <;> rfl
    simp only [orphans, List.filterMap_append, dropped, List.nil_append]
    exact (adoptEach_eq_deal retired _ _).2.2

variable {c desired retired}

/-- What is known of a key that took over an orphan. -/
theorem mem_adoption {m : Match} (h : m ∈ (c.adoption desired retired).served) :
    m.Fits ∧ m.host ∈ c.orphans ∧ ¬ m.host.IsRetired retired ∧ m.slot.2 ∈ c.pending ∧
      ∃ wanted, (m.slot.2, wanted) ∈ desired.entries ∧ wanted.name = none ∧
        m.slot.1 = wanted.hostClass := by
  have d := c.adoption_settles desired retired
  have host : m.host ∈ eligible retired c.offered := by
    have all : m.host ∈ (eligible retired c.offered : Multiset HostRecord) :=
      d.hosts ▸ Multiset.mem_add.2 (.inl (List.mem_map_of_mem h))
    exact all
  have slot : m.slot ∈ (unnamedBuckets c.pending desired).slots :=
    d.slots ▸ Multiset.mem_add.2 (.inl (List.mem_map_of_mem h))
  rw [slots_unnamedBuckets, Multiset.mem_coe, mem_openSlots] at slot
  obtain ⟨listed, fresh⟩ := List.mem_filter.1 host
  exact ⟨d.fits m h, c.perm_offered.mem_iff.1 listed, by simpa using fresh, slot⟩

theorem adoption_keys (desired : HostMap) (retired : List String) (pending : c.pending.Nodup) :
    ((c.adoption desired retired).served.map (·.slot.2)).Nodup := by
  have d := c.adoption_settles desired retired
  have slots : (↑((c.adoption desired retired).served.map Match.slot) :
      Multiset (HostClass × String)) ≤ ↑(openSlots c.pending desired) := by
    rw [← slots_unnamedBuckets, d.slots]
    exact Multiset.le_add_right _ _
  have keys := Multiset.nodup_of_le (Multiset.map_le_map (f := Prod.snd) slots)
    (pending.sublist (openSlots_keys c.pending desired))
  rw [Multiset.map_coe, List.map_map] at keys
  exact keys

theorem Accounts.adoptOrphans {listed : List HostRecord} (h : c.Accounts desired listed)
    (retired : List String) : (c.adoptOrphans desired retired).Accounts desired listed := by
  have pending : c.pending.Nodup := (List.nodup_append.1 h.nodup_keys).2.1
  constructor
  · rw [pairs_adoptOrphans, pending_adoptOrphans, List.map_append, List.map_map]
    have keys := adoption_keys desired retired pending
    have split : ((c.adoption desired retired).served.map (·.slot.2) ++ c.pending.filter fun key =>
        key ∉ (c.adoption desired retired).served.map (·.slot.2)).Perm c.pending := by
      refine (List.perm_ext_iff_of_nodup ?_ pending).2 fun key => ?_
      · refine List.nodup_append.2 ⟨keys, pending.filter _, fun a ha b hb => ?_⟩
        rintro rfl
        exact absurd ha (by simpa using (List.mem_filter.1 hb).2)
      · have taken : key ∈ (c.adoption desired retired).served.map (·.slot.2) →
            key ∈ c.pending := by
          intro hk
          obtain ⟨m, hm, rfl⟩ := List.mem_map.1 hk
          exact (mem_adoption hm).2.2.2.1
        rw [List.mem_append, List.mem_filter, decide_eq_true_eq]
        tauto
    rw [List.append_assoc]
    exact (split.append_left _).trans h.keys
  · rw [pairs_adoptOrphans, List.map_append, List.map_map, List.append_assoc]
    have rest := ((c.orphans_adoptOrphans desired retired).append_left
      ((c.adoption desired retired).served.map Match.host)).trans
        (c.offered_split desired retired).symm
    exact ((rest.trans c.perm_offered).append_left _).trans h.records

end Correlation

end Adoption

section Agreement

theorem WellNamed.eq_of_entries {m : HostMap} (h : WellNamed (m.values : Multiset HostRecord))
    {a b : String × HostRecord} (ha : a ∈ m.entries) (hb : b ∈ m.entries)
    (same : a.2.name = b.2.name) : a = b := by
  have distinct : (m.entries.map fun e => e.2.name).Nodup := by
    simpa [KeyMap.values, Function.comp_def] using h.distinct
  exact List.inj_on_of_nodup_map distinct ha hb same

/-- Each key of the one map has a host of the same name in the other, where all hosts have
names. -/
theorem exists_partner {wanted hosts : HostMap}
    (wellNamed : WellNamed (hosts.values : Multiset HostRecord))
    (agree : ∀ key, (wanted.get? key).map HostRecord.name = (hosts.get? key).map HostRecord.name)
    {key : String} {w : HostRecord} (hw : (key, w) ∈ wanted.entries) :
    ∃ r n, (key, r) ∈ hosts.entries ∧ w.name = some n ∧ r.name = some n := by
  have names := agree key
  rw [KeyMap.get?_eq_some.2 hw] at names
  obtain ⟨r, hr, eq⟩ := Option.map_eq_some_iff.1 names.symm
  have he := KeyMap.get?_eq_some.1 hr
  obtain ⟨n, name⟩ := Option.isSome_iff_exists.1 (wellNamed.named r (KeyMap.mem_values_of_mem he))
  exact ⟨r, n, he, eq.symm.trans name, name⟩

/-- A map whose keys bear the names of the listed hosts leaves no key pending. -/
theorem pending_correlateByName {wanted hosts : HostMap} {listed : List HostRecord}
    (listing : (listed : Multiset HostRecord) = ↑hosts.values)
    (wellNamed : WellNamed (hosts.values : Multiset HostRecord))
    (agree : ∀ key, (wanted.get? key).map HostRecord.name = (hosts.get? key).map HostRecord.name) :
    (correlateByName wanted listed).pending = [] := by
  have c := correlateByName_accounts wanted listed
  have alone : wanted.entries.Pairwise fun a b => a.2.name = b.2.name → a.2.name = none := by
    refine KeyMap.pairwise_entries fun a ha b hb apart same => ?_
    obtain ⟨r, n, hr, hn, rn⟩ := exists_partner wellNamed agree ha
    obtain ⟨s, m, hs, hm, sm⟩ := exists_partner wellNamed agree hb
    have eq := wellNamed.eq_of_entries hr hs (rn.trans (hn.symm.trans (same.trans (hm.trans sm.symm))))
    exact absurd (Prod.mk.inj eq).1 apart
  refine List.eq_nil_iff_forall_not_mem.2 fun key hk => ?_
  obtain ⟨w, hw⟩ := KeyMap.mem_keys.1 (c.keys.mem_iff.1 (List.mem_append_right _ hk))
  obtain ⟨r, n, hr, wn, rn⟩ := exists_partner wellNamed agree hw
  have present : r ∈ (listed : Multiset HostRecord) :=
    listing ▸ Multiset.mem_coe.2 (KeyMap.mem_values_of_mem hr)
  exact matchNames_pending _ _ alone wanted.nodup_keys hk hw wn (mem_keys_byName.2 ⟨r, present, rn⟩)

/-- A map whose keys bear the names of the listed hosts gets exactly these hosts. -/
theorem correlateByName_eq {wanted hosts : HostMap} {listed : List HostRecord}
    (listing : (listed : Multiset HostRecord) = ↑hosts.values)
    (wellNamed : WellNamed (hosts.values : Multiset HostRecord))
    (agree : ∀ key, (wanted.get? key).map HostRecord.name = (hosts.get? key).map HostRecord.name) :
    (correlateByName wanted listed).pending = [] ∧
      (correlateByName wanted listed).matched = hosts ∧
      (correlateByName wanted listed).orphans = [] := by
  have c := correlateByName_accounts wanted listed
  have pending := pending_correlateByName listing wellNamed agree
  have inHosts : ∀ e ∈ (correlateByName wanted listed).matched.entries, e ∈ hosts.entries := by
    rintro ⟨key, r⟩ he
    obtain ⟨w, n, hw, wn, hr⟩ := matchNames_pairs _ _ (c.mem_matched.1 he)
    obtain ⟨s, m, hs, wm, sm⟩ := exists_partner wellNamed agree hw
    obtain ⟨r_listed, rn⟩ := mem_byName hr
    have inValues : r ∈ (hosts.values : Multiset HostRecord) := listing ▸ Multiset.mem_coe.2 r_listed
    have names : r.name = s.name := by rw [rn, sm, ← wn, wm]
    exact wellNamed.eq_of_name inValues (KeyMap.mem_values_of_mem hs) names ▸ hs
  have keys : (correlateByName wanted listed).matched.keys.Perm hosts.keys := by
    have all : (correlateByName wanted listed).matched.keys.Perm wanted.keys := by
      have k := c.keys
      rw [pending, List.append_nil] at k
      exact (c.perm_matched.map Prod.fst).trans k
    refine all.trans ((List.perm_ext_iff_of_nodup wanted.nodup_keys hosts.nodup_keys).2 fun k => ?_)
    rw [← not_iff_not, ← KeyMap.get?_eq_none, ← KeyMap.get?_eq_none,
      ← Option.map_eq_none_iff (f := HostRecord.name), agree, Option.map_eq_none_iff]
  have matched : (correlateByName wanted listed).matched = hosts := by
    refine KeyMap.ext_perm ((List.subperm_of_subset ((KeyMap.nodup_keys _).of_map _)
      inHosts).perm_of_length_le ?_)
    simpa only [KeyMap.keys, List.length_map] using keys.length_eq.ge
  refine ⟨pending, matched, ?_⟩
  have count := c.records.length_eq
  have whole := (values_byName (listing ▸ wellNamed)).length_eq
  have listedLength : listed.length = hosts.entries.length := by
    simpa [KeyMap.values] using congrArg Multiset.card listing
  have pairsLength := (matched ▸ c.perm_matched).length_eq
  refine List.eq_nil_of_length_eq_zero ?_
  simp only [List.length_append, List.length_map] at count
  omega

end Agreement

end HostRoster
