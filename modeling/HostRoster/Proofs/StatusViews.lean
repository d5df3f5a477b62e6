import HostRoster.Proofs.Accounting
import HostRoster.Service.Status

/-!
# The status of a cluster as a correlation

A status looks up the name of each listed host among the recorded ones, and searches the listing
for the name of each recorded key. A correlation walks the keys and takes their hosts out of the
listing one by one. As long as no name is recorded twice they come to the same: the same hosts
belong to the same keys, the others to nobody, and the same keys have no host.
-/
namespace HostRoster

/-- The records of a listing. -/
def recordsOf (listed : List ListedHost) : List HostRecord := listed.map ListedHost.toRecord

/-- What a status shows of a listing, compared with the correlation of the same hosts. -/
structure ClusterStatus.AgreesWith (s : ClusterStatus) (c : Correlation) (known : HostMap)
    (listed : List ListedHost) : Prop where
  /-- The listed hosts are shown one by one. -/
  hosts : s.hosts.map ObservedHost.host = listed
  /-- A named host is shown under the key to which its name is matched. -/
  attributed : ∀ h ∈ s.hosts, h.host.name ≠ "" → ∀ key,
    h.key = some key ↔ recordedName c.matched key = some h.host.name
  /-- A named host is managed by nobody if it is an orphan. -/
  unmanaged : ∀ h ∈ s.hosts, h.host.name ≠ "" →
    (h.isManaged = false ↔ h.host.name ∈ c.orphanNames)
  /-- A host without a name is managed by nobody. -/
  unnamed : ∀ h ∈ s.hosts, h.host.name = "" → h.isManaged = false
  /-- The keys without a host are the pending ones, in their order. -/
  missing : s.missingKeys = c.pending
  /-- Each recorded key is missing or shown with a host. -/
  keys : ∀ key ∈ known.keys, Xor (key ∈ s.missingKeys) (∃ h ∈ s.hosts, h.key = some key)
  /-- Every listed host is of one health. -/
  counts : s.count .alive + s.count .degraded + s.count .dead + s.count .unknown = s.totalHosts
  total : s.totalHosts = listed.length

section Names

variable {known : HostMap} {records : List HostRecord} {n key : String}

theorem DistinctNames.alone (distinct : DistinctNames known) :
    known.entries.Pairwise fun a b => a.2.name = b.2.name → a.2.name = none :=
  KeyMap.pairwise_entries fun a ha b hb apart same =>
    (distinct a ha b hb same).resolve_right fun eq => apart (congrArg Prod.fst eq)

/-- A name that is recorded once is looked up as its key. -/
theorem keyOfName_eq_some (distinct : DistinctNames known) :
    keyOfName known n = some key ↔ recordedName known key = some n := by
  rw [recordedName_eq_some, keyOfName, Option.map_eq_some_iff]
  constructor
  · rintro ⟨e, found, rfl⟩
    have name := List.find?_some found
    exact ⟨e.2, List.mem_reverse.1 (List.mem_of_find?_eq_some found), eq_of_beq name⟩
  · rintro ⟨r, mem, name⟩
    have some_ : (known.entries.reverse.find? fun e => e.2.name == some n).isSome :=
      List.find?_isSome.2 ⟨_, List.mem_reverse.2 mem, beq_iff_eq.2 name⟩
    obtain ⟨e, found⟩ := Option.isSome_iff_exists.1 some_
    have name' := List.find?_some found
    have same : e.2.name = some n := eq_of_beq name'
    have listed := List.mem_reverse.1 (List.mem_of_find?_eq_some found)
    rcases distinct e listed _ mem (same.trans name.symm) with none | rfl
    · simp [same] at none
    · exact ⟨_, found, rfl⟩

/-- Under names of their own, the keys without a host are those whose names are not listed. -/
theorem pending_matchNames (named : KeyMap String HostRecord) {entries : List (String × HostRecord)}
    (alone : entries.Pairwise fun a b => a.2.name = b.2.name → a.2.name = none) :
    (matchNames named entries).2 =
      (entries.filter fun e => !e.2.name.any named.contains).map Prod.fst := by
  induction entries generalizing named with
  | nil => rfl
  | cons e rest ih =>
    obtain ⟨first, others⟩ := List.pairwise_cons.1 alone
    rcases matchNames_cons named e.1 e.2 rest with ⟨m, r, name, listed, eq⟩ | ⟨absent, eq⟩
    · have taken : named.contains m = true := KeyMap.contains_iff.2 (KeyMap.mem_keys_of_mem listed)
      rw [eq, List.filter_cons_of_neg (by simp [name, taken]), ih (named.erase m) others]
      -- no other key asks for the host that has been taken
      refine congrArg _ (List.filter_congr fun f hf => ?_)
      cases other : f.2.name with
      | none => rfl
      | some k =>
        have apart : k ≠ m := by
          rintro rfl
          have none := first f hf (name.trans other.symm)
          simp [name] at none
        rw [Option.any_some, Option.any_some, Bool.eq_iff_iff, Bool.not_eq_true', Bool.not_eq_true',
          ← Bool.not_eq_true, ← Bool.not_eq_true, KeyMap.contains_iff, KeyMap.contains_iff]
        simp [KeyMap.mem_keys, KeyMap.mem_erase, apart]
    · have kept : (!e.2.name.any named.contains) = true := by
        cases name : e.2.name with
        | none => rfl
        | some k =>
          have missing := absent k name
          rw [← KeyMap.contains_iff] at missing
          simpa using missing
      rw [eq, List.filter_cons, if_pos kept, List.map_cons, ih named others]

/-- Under names of their own, a name is matched to a key if it is recorded for it and listed. -/
theorem recordedName_matched (distinct : DistinctNames known) :
    recordedName (correlateByName known records).matched key = some n ↔
      recordedName known key = some n ∧ n ∈ (byName records).keys := by
  have c := correlateByName_accounts known records
  -- what is matched bears the name that is recorded for its key
  have sound : ∀ r, (key, r) ∈ (correlateByName known records).matched.entries →
      ∃ m, r.name = some m ∧ recordedName known key = some m ∧ m ∈ (byName records).keys := by
    intro r matched
    obtain ⟨wanted, m, recorded, name, listed⟩ := matchNames_pairs _ _ (c.mem_matched.1 matched)
    exact ⟨m, (mem_byName listed).2, recordedName_eq_some.2 ⟨wanted, recorded, name⟩,
      KeyMap.mem_keys_of_mem listed⟩
  constructor
  · intro matched
    obtain ⟨r, mem, name⟩ := recordedName_eq_some.1 matched
    obtain ⟨m, name', facts⟩ := sound r mem
    obtain rfl : n = m := Option.some.inj (name.symm.trans name')
    exact facts
  · rintro ⟨recorded, listed⟩
    obtain ⟨wanted, mem, name⟩ := recordedName_eq_some.1 recorded
    have isKey := KeyMap.mem_keys_of_mem mem
    have matched : key ∈ (correlateByName known records).matched.keys := by
      by_contra none
      have pending := (c.not_mem_matched isKey).1 none
      exact matchNames_pending _ _ distinct.alone known.nodup_keys pending mem name listed
    obtain ⟨r, hr⟩ := KeyMap.mem_keys.1 matched
    obtain ⟨m, name', recorded', -⟩ := sound r hr
    obtain rfl : n = m := Option.some.inj (recorded.symm.trans recorded')
    exact recordedName_eq_some.2 ⟨r, hr, name'⟩

/-- Under names of their own, a listed name is an orphan's if it is recorded for no key. -/
theorem mem_orphanNames (distinct : DistinctNames known) (listed : n ∈ (byName records).keys) :
    n ∈ (correlateByName known records).orphanNames ↔ ∀ key, recordedName known key ≠ some n := by
  have c := correlateByName_accounts known records
  have present : n ∈ (records.filterMap HostRecord.name).dedup :=
    (perm_keys_byName records).mem_iff.1 listed
  have once := c.perm_names.nodup_iff.2 (List.nodup_dedup _)
  have apart := (List.nodup_append.1 once).2.2
  have matched : n ∈ (correlateByName known records).matched.values.filterMap HostRecord.name ↔
      ∃ key, recordedName known key = some n := by
    simp only [mem_names_values, recordedName_matched distinct, listed, and_true]
  rcases List.mem_append.1 (c.perm_names.mem_iff.2 present) with known_ | orphan
  · obtain ⟨key, recorded⟩ := matched.1 known_
    exact iff_of_false (fun orphan => apart n known_ n orphan rfl) fun none => none key recorded
  · refine iff_of_true orphan fun key recorded => ?_
    exact apart n (matched.2 ⟨key, recorded⟩) n orphan rfl

end Names

section Status

variable {known : HostMap} {listed : List ListedHost} {clusterId n key : String}

theorem ListedHost.name_toRecord {h : ListedHost} :
    h.toRecord.name = some n ↔ h.name = n ∧ n ≠ "" :=
  HostRecord.name_eq_some.trans (and_congr_left' (Option.some_inj (a := h.name)))

/-- A name stands in a listing if a host bears it and it is not empty. -/
theorem mem_keys_recordsOf :
    n ∈ (byName (recordsOf listed)).keys ↔ (∃ h ∈ listed, h.name = n) ∧ n ≠ "" := by
  rw [mem_keys_byName, recordsOf]
  constructor
  · rintro ⟨r, mem, name⟩
    obtain ⟨h, hh, rfl⟩ := List.mem_map.1 mem
    obtain ⟨same, some_⟩ := ListedHost.name_toRecord.1 name
    exact ⟨⟨h, hh, same⟩, some_⟩
  · rintro ⟨⟨h, hh, same⟩, some_⟩
    exact ⟨_, List.mem_map_of_mem hh, ListedHost.name_toRecord.2 ⟨same, some_⟩⟩

theorem mem_hosts_summarize {o : ObservedHost} :
    o ∈ (summarize clusterId listed known).hosts ↔
      o.host ∈ listed ∧ o.key = keyOfName known o.host.name := by
  simp only [summarize, List.mem_map]
  constructor
  · rintro ⟨h, mem, rfl⟩
    exact ⟨mem, rfl⟩
  · rintro ⟨mem, key⟩
    exact ⟨o.host, mem, by rw [← key]⟩

/-- An empty name is recorded for no key. -/
theorem recordedName_ne_empty : recordedName known key ≠ some "" := by
  intro recorded
  obtain ⟨r, -, name⟩ := recordedName_eq_some.1 recorded
  exact (HostRecord.name_eq_some.1 name).2 rfl

/-- The keys that a search of the listing misses are those that are left without a host. -/
theorem missingKeys_summarize (distinct : DistinctNames known) :
    (summarize clusterId listed known).missingKeys =
      (correlateByName known (recordsOf listed)).pending := by
  change _ = (matchNames (byName (recordsOf listed)) known.entries).2
  rw [pending_matchNames _ distinct.alone]
  refine congrArg _ (List.filter_congr fun e _ => congrArg not ?_)
  cases name : e.2.name with
  | none => rfl
  | some n =>
    have some_ := (HostRecord.name_eq_some.1 name).2
    rw [Option.any_some, Option.any_some, Bool.eq_iff_iff, KeyMap.contains_iff, mem_keys_recordsOf]
    simp [some_]

/-- A listed name is looked up as the key to which it is matched. -/
theorem keyOfName_listed (distinct : DistinctNames known) {h : ListedHost} (mem : h ∈ listed) :
    keyOfName known h.name = some key ↔
      recordedName (correlateByName known (recordsOf listed)).matched key = some h.name := by
  rw [keyOfName_eq_some distinct, recordedName_matched distinct, mem_keys_recordsOf]
  refine (and_iff_left_of_imp fun recorded => ⟨⟨h, mem, rfl⟩, fun empty => ?_⟩).symm
  rw [empty] at recorded
  exact recordedName_ne_empty recorded

/-- A key has a host in the correlation if a listed host is shown under it. -/
theorem mem_matched_iff_shown (distinct : DistinctNames known) :
    key ∈ (correlateByName known (recordsOf listed)).matched.keys ↔
      ∃ o ∈ (summarize clusterId listed known).hosts, o.key = some key := by
  have c := correlateByName_accounts known (recordsOf listed)
  constructor
  · intro matched
    obtain ⟨r, mem⟩ := KeyMap.mem_keys.1 matched
    have paired : r ∈ (correlateByName known (recordsOf listed)).pairs.map Prod.snd :=
      List.mem_map_of_mem (c.mem_matched.1 mem)
    obtain ⟨h, hh, rfl⟩ := List.mem_map.1 (c.mem_listed (List.mem_append_left _ paired))
    obtain ⟨n, name⟩ := Option.isSome_iff_exists.1 (c.named (KeyMap.get?_eq_some.2 mem))
    obtain ⟨rfl, -⟩ := ListedHost.name_toRecord.1 name
    have found := (keyOfName_listed distinct hh).2 (recordedName_eq_some.2 ⟨_, mem, name⟩)
    exact ⟨⟨h, keyOfName known h.name⟩, mem_hosts_summarize.2 ⟨hh, rfl⟩, found⟩
  · rintro ⟨o, mem, shown⟩
    obtain ⟨host, found⟩ := mem_hosts_summarize.1 mem
    rw [found, keyOfName_listed distinct host] at shown
    obtain ⟨r, he, -⟩ := recordedName_eq_some.1 shown
    exact KeyMap.mem_keys_of_mem he

/-- The hosts of the four kinds of health are all hosts. -/
theorem ClusterStatus.count_healths (s : ClusterStatus) :
    s.count .alive + s.count .degraded + s.count .dead + s.count .unknown = s.totalHosts := by
  simp only [count, totalHosts]
  induction s.hosts with
  | nil => rfl
  | cons h rest ih =>
    simp only [List.countP_cons, List.length_cons]
    cases h.host.health <;> simp <;> omega

/-- A status shows what a correlation by name finds, if no name is recorded twice. -/
theorem status_agrees (clusterId : String) (listed : List ListedHost)
    (distinct : DistinctNames known) :
    (summarize clusterId listed known).AgreesWith (correlateByName known (recordsOf listed)) known
      listed := by
  have c := correlateByName_accounts known (recordsOf listed)
  constructor
  · simp [summarize, Function.comp_def]
  · intro o mem _ key
    obtain ⟨host, found⟩ := mem_hosts_summarize.1 mem
    rw [found]
    exact keyOfName_listed distinct host
  · intro o mem some_
    obtain ⟨host, found⟩ := mem_hosts_summarize.1 mem
    have present := mem_keys_recordsOf.2 ⟨⟨o.host, host, rfl⟩, some_⟩
    rw [mem_orphanNames distinct present, ObservedHost.isManaged, found,
      ← Bool.not_eq_true, Option.isSome_iff_exists, not_exists]
    exact forall_congr' fun key => not_congr (keyOfName_eq_some distinct)
  · intro o mem empty
    obtain ⟨host, found⟩ := mem_hosts_summarize.1 mem
    rw [ObservedHost.isManaged, found, empty, ← Bool.not_eq_true, Option.isSome_iff_exists]
    rintro ⟨key, recorded⟩
    exact recordedName_ne_empty ((keyOfName_eq_some distinct).1 recorded)
  · exact missingKeys_summarize distinct
  · intro key isKey
    rw [missingKeys_summarize distinct, ← c.not_mem_matched isKey, mem_matched_iff_shown distinct]
    exact (em _).symm.imp (fun none => ⟨none, none⟩) fun some_ => ⟨some_, not_not_intro some_⟩
  · exact ClusterStatus.count_healths _
  · simp [ClusterStatus.totalHosts, summarize]

end Status

/-- A key with a host, one whose host is lost, and one that has never had a host. -/
def recordedLost : HostMap :=
  .ofList [
    ("kept", { zone := "z", assignedName := some "h1" }),
    ("lost", { zone := "z", assignedName := some "h9" }),
    ("new", { zone := "z" })]

/-- A listing that shows one host twice, one that nobody manages and one without a name. -/
def shownTwice : List ListedHost :=
  [host "h1" .master .alive, host "h2" .replica .degraded, host "" .unknown .dead,
    host "h1" .master .unknown]
where
  host (name : String) (role : HostRole) (health : HostHealth) : ListedHost :=
    ⟨name, "c1", "z", none, false, none, role, health⟩

theorem status_agrees_shownTwice :
    let s := summarize "c1" shownTwice recordedLost
    let c := correlateByName recordedLost (recordsOf shownTwice)
    DistinctNames recordedLost ∧ s.AgreesWith c recordedLost shownTwice ∧
      s.hosts.map ObservedHost.key = [some "kept", none, none, some "kept"] ∧
      s.missingKeys = ["lost", "new"] ∧ c.orphanNames = ["h2"] := by
  intro s c
  have distinct : DistinctNames recordedLost := by decide +kernel
  exact ⟨distinct, status_agrees "c1" shownTwice distinct, by decide +kernel, by decide +kernel,
    by decide +kernel⟩

end HostRoster
