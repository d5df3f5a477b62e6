import HostRoster.Cluster
import HostRoster.Proofs.Faithful

/-!
# The cluster in memory is faithful

As long as no effect is queued, the cluster in memory lists its hosts, names new ones
by a counter that no existing name has reached, and updates and deletes by name.
-/
namespace HostRoster.Cluster

/-- The name of the host of a number in a zone. -/
def hostName (zone : String) (n : Nat) : String := zone ++ "-" ++ toString n ++ ".db.internal"

theorem eq_of_append_cons {c : Char} {a b x y : List Char} (hx : c ∉ x) (hy : c ∉ y)
    (h : a ++ c :: x = b ++ c :: y) : x = y := by
  rcases List.append_eq_append_iff.1 h with ⟨mid, -, rest⟩ | ⟨mid, -, rest⟩
  · cases mid with
    | nil => exact (List.cons.inj rest).2
    | cons d mid => exact absurd ((List.cons.inj rest).2 ▸ by simp) hx
  · cases mid with
    | nil => exact (List.cons.inj rest).2.symm
    | cons d mid => exact absurd ((List.cons.inj rest).2 ▸ by simp) hy

/-- Behind its last dash a name has digits, so that it gives its number away. -/
theorem hostName_injective {zone other : String} {n m : Nat}
    (h : hostName zone n = hostName other m) : n = m := by
  have noDash : ∀ k : Nat, '-' ∉ Nat.toDigits 10 k := fun k hk => by
    have digit := Nat.isDigit_of_mem_toDigits (by decide) (by decide) hk
    simp at digit
  have chars : zone.toList ++ '-' :: (Nat.toDigits 10 n ++ ".db.internal".toList) =
      other.toList ++ '-' :: (Nat.toDigits 10 m ++ ".db.internal".toList) := by
    simpa [hostName] using congrArg String.toList h
  have tails := eq_of_append_cons (by simp [noDash]) (by simp [noDash]) chars
  have digits := List.append_cancel_right tails
  simpa using congrArg (Nat.ofDigitChars 10 · 0) digits

/-- No effect is queued, the hosts have names of their own, and no number above the counter
has been given away. -/
structure Sound (c : Cluster) : Prop where
  listQuiet : c.listEffects = []
  createQuiet : c.createEffects = []
  updateQuiet : c.updateEffects = []
  deleteQuiet : c.deleteEffects = []
  wellNamed : WellNamed (c.hosts : Multiset HostRecord)
  counted : ∀ r ∈ c.hosts, ∀ zone n, r.name = some (hostName zone n) → n ≤ c.nextId

theorem sound_new (order : ListingOrder) (subnets : KeyMap String String) :
    Sound { order, subnets } :=
  ⟨rfl, rfl, rfl, rfl, ⟨by simp, by simp⟩, by simp⟩

/-- With no effect queued, a call is carried out as it should be. -/
theorem Sound.serve_eq {c : Cluster} (h : c.Sound) (call : Call) :
    server.serve call c = c.perform {} call := by
  obtain ⟨hosts, nextId, order, subnets, lists, creates, updates, deletes⟩ := c
  obtain ⟨rfl, rfl, rfl, rfl, -, -⟩ := h
  cases call <;> rfl

theorem perm_listing (c : Cluster) : c.listing.Perm c.hosts := by
  rw [listing]
  cases c.order with
  | newestFirst => exact List.reverse_perm _
  | oldestFirst => exact .refl _
  | byName => exact List.mergeSort_perm _ _

/-- One more host: the counter goes up by one and gives the name. -/
theorem Sound.addHost {c : Cluster} (h : c.Sound) (spec : HostSpec) :
    ∃ record name, (c.addHost spec).1.hosts = c.hosts ++ [record] ∧
      (c.addHost spec).2 = name ∧ record.name = some name ∧ Realizes spec record ∧
      (c.addHost spec).1.Sound := by
  let name := hostName spec.zone (c.nextId + 1)
  let record : HostRecord :=
    { spec with subnetId := spec.subnetId.or (c.subnets.get? spec.zone), assignedName := some name }
  have named : record.name = some name := by
    refine HostRecord.name_eq_some.2 ⟨rfl, fun empty => ?_⟩
    have chars := congrArg String.toList empty
    simp [name, hostName] at chars
  have isNew : ∀ r ∈ c.hosts, r.name ≠ record.name := by
    intro r hr same
    have bound := h.counted r hr spec.zone (c.nextId + 1) (same.trans named)
    omega
  have added : WellNamed (↑(c.hosts ++ [record]) : Multiset HostRecord) := by
    rw [Multiset.coe_eq_coe.2 List.perm_append_comm, List.singleton_append, ← Multiset.cons_coe]
    exact WellNamed.cons_iff.2 ⟨named ▸ rfl, fun r hr => isNew r hr, h.wellNamed⟩
  refine ⟨record, name, rfl, rfl, named, ⟨rfl, ?_, rfl, rfl⟩,
    ⟨h.listQuiet, h.createQuiet, h.updateQuiet, h.deleteQuiet, added, ?_⟩⟩
  · cases subnet : spec.subnetId with
    | none => exact .inl rfl
    | some s => exact .inr (by simp [record, subnet])
  · intro r hr zone n same
    rcases List.mem_append.1 hr with hr | hr
    · exact (h.counted r hr zone n same).trans (Nat.le_succ _)
    · obtain rfl := List.mem_singleton.1 hr
      exact (hostName_injective (Option.some.inj (same.symm.trans named))).le

/-- Hosts for all specs of a list; their names come back latest first. -/
theorem Sound.addHosts {c : Cluster} (h : c.Sound) (specs : List HostSpec) (names : List String) :
    ∃ fresh given, (c.addHosts specs names).1.hosts = c.hosts ++ fresh ∧
      (c.addHosts specs names).2 = given ++ names ∧
      (given.map some).Perm (fresh.map HostRecord.name) ∧ List.Forall₂ Realizes specs fresh ∧
      (c.addHosts specs names).1.Sound := by
  induction specs generalizing c names with
  | nil => exact ⟨[], [], (List.append_nil _).symm, rfl, .refl _, .nil, h⟩
  | cons spec rest ih =>
    obtain ⟨record, name, hosts, named, recordNamed, realizes, sound⟩ := h.addHost spec
    obtain ⟨fresh, given, hosts', names', perm, realized, sound'⟩ := ih sound ((c.addHost spec).2 :: names)
    refine ⟨record :: fresh, given ++ [name], ?_, ?_, ?_, .cons realizes realized, sound'⟩
    · exact hosts'.trans (by rw [hosts, List.append_assoc, List.singleton_append])
    · exact names'.trans (by rw [named, List.append_assoc, List.singleton_append])
    · rw [List.map_append, List.map_cons, List.map_cons, recordNamed]
      exact List.perm_append_comm.trans (perm.cons _)

/-- Of distinctly named hosts the first of a name is the only one. -/
theorem updateFirst_of_present {u : HostUpdate} {hosts : List HostRecord}
    (wellNamed : WellNamed (hosts : Multiset HostRecord)) (present : Present ↑hosts u.name) :
    updateFirst u hosts = some (hosts.map (·.updatedBy u)) := by
  induction hosts with
  | nil =>
    obtain ⟨r, hr, -⟩ := present
    simp at hr
  | cons r rest ih =>
    rw [← Multiset.cons_coe] at wellNamed present
    obtain ⟨named, others, wellNamedRest⟩ := WellNamed.cons_iff.1 wellNamed
    rw [updateFirst, HostRecord.assignedName_eq named]
    split
    next here =>
      have untouched : rest.map (·.updatedBy u) = rest :=
        (List.map_congr_left fun o ho => if_neg (here ▸ others o (Multiset.mem_coe.2 ho))).trans
          (List.map_id' rest)
      rw [List.map_cons, untouched, HostRecord.updatedBy, if_pos here]
    next there =>
      obtain ⟨x, hx, name⟩ := present
      rcases Multiset.mem_cons.1 hx with rfl | hx
      · exact absurd name there
      · rw [ih wellNamedRest ⟨x, hx, name⟩, List.map_cons]
        simp [HostRecord.updatedBy, there]

theorem updateFirst_of_absent {u : HostUpdate} {hosts : List HostRecord}
    (wellNamed : WellNamed (hosts : Multiset HostRecord)) (absent : ¬ Present ↑hosts u.name) :
    updateFirst u hosts = none := by
  induction hosts with
  | nil => rfl
  | cons r rest ih =>
    rw [← Multiset.cons_coe] at wellNamed
    obtain ⟨named, -, wellNamedRest⟩ := WellNamed.cons_iff.1 wellNamed
    have there : r.name ≠ some u.name := fun name => absent ⟨r, Multiset.mem_coe.2 (.head _), name⟩
    have others : ¬ Present ↑rest u.name := fun ⟨x, hx, name⟩ =>
      absent ⟨x, Multiset.mem_coe.2 (.tail _ (Multiset.mem_coe.1 hx)), name⟩
    rw [updateFirst, HostRecord.assignedName_eq named, if_neg there, ih wellNamedRest others]
    rfl

/-- A host keeps its name, so that the names in use stay those the counter gave. -/
theorem Sound.withHosts {c : Cluster} (h : c.Sound) {hosts : List HostRecord}
    (wellNamed : WellNamed (hosts : Multiset HostRecord))
    (names : ∀ r ∈ hosts, ∃ old ∈ c.hosts, old.name = r.name) : { c with hosts }.Sound := by
  refine ⟨h.listQuiet, h.createQuiet, h.updateQuiet, h.deleteQuiet, wellNamed, ?_⟩
  intro r hr zone n name
  obtain ⟨old, ho, same⟩ := names r hr
  exact h.counted old ho zone n (same.trans name)

/-- A call is answered faithfully, and the names stay those of the counter. -/
def Answers (c : Cluster) (call : Call) : Prop :=
  (c.perform {} call).2.Sound ∧
    Serves call.addressee ↑c.hosts ⟨call, (c.perform {} call).1⟩ ↑(c.perform {} call).2.hosts

theorem Sound.answers_create {c : Cluster} (h : c.Sound) (id : String) (specs : List HostSpec) :
    c.Answers (.create id specs) := by
  obtain ⟨fresh, given, hosts, names, perm, realized, sound⟩ := h.addHosts specs []
  rw [List.append_nil] at names
  have all : (↑(c.addHosts specs []).1.hosts : Multiset HostRecord) = ↑c.hosts + ↑fresh := by
    rw [hosts, Multiset.coe_add]
  refine ⟨sound, ?_⟩
  change Serves id ↑c.hosts ⟨.create id specs, Except.ok (c.addHosts specs []).2⟩
    ↑(c.addHosts specs []).1.hosts
  rw [all, names]
  exact .create realized perm (all ▸ sound.wellNamed)

theorem Sound.answers_update {c : Cluster} (h : c.Sound) (id : String) (u : HostUpdate) :
    c.Answers (.update id u) := by
  rw [Answers, perform]
  by_cases present : Present ↑c.hosts u.name
  · rw [updateFirst_of_present h.wellNamed present]
    refine ⟨h.withHosts (h.wellNamed.map_updatedBy u) fun r hr => ?_, .update present⟩
    obtain ⟨old, ho, rfl⟩ := List.mem_map.1 hr
    exact ⟨old, ho, (old.name_updatedBy u).symm⟩
  · rw [updateFirst_of_absent h.wellNamed present]
    exact ⟨h, .updateAbsent present _⟩

theorem Sound.answers_delete {c : Cluster} (h : c.Sound) (id name : String) :
    c.Answers (.delete id name) := by
  have kept : c.hosts.filter (fun r => r.assignedName ≠ some name) =
      c.hosts.filter fun r => r.name ≠ some name :=
    List.filter_congr fun r hr => by
      rw [HostRecord.assignedName_eq (h.wellNamed.named r (Multiset.mem_coe.2 hr))]
  have rest : ∀ r ∈ c.hosts.filter (fun r => r.name ≠ some name), r ∈ c.hosts :=
    fun r hr => (List.mem_filter.1 hr).1
  simp only [Answers, perform, kept, Bool.false_eq_true, if_false]
  by_cases present : Present ↑c.hosts name
  · have fewer : (c.hosts.filter fun r => r.name ≠ some name).length ≠ c.hosts.length := by
      obtain ⟨r, hr, named⟩ := present
      intro same
      simpa [named] using List.length_filter_eq_length_iff.1 same r hr
    rw [if_neg fewer]
    refine ⟨h.withHosts ?_ fun r hr => ⟨r, rest r hr, rfl⟩, ?_⟩
    · exact h.wellNamed.of_le (Multiset.coe_le.2 List.filter_sublist.subperm)
    · exact Multiset.filter_coe (fun r : HostRecord => r.name ≠ some name) c.hosts ▸
        Serves.delete present
  · have whole : (c.hosts.filter fun r => r.name ≠ some name) = c.hosts :=
      List.filter_eq_self.2 fun r hr => by simpa using fun named => present ⟨r, hr, named⟩
    rw [whole, if_pos rfl]
    exact ⟨h, .deleteAbsent present _⟩

theorem Sound.answers {c : Cluster} (h : c.Sound) (call : Call) : c.Answers call := by
  cases call with
  | list id => exact ⟨h, .list (Multiset.coe_eq_coe.2 c.perm_listing)⟩
  | create id specs => exact h.answers_create id specs
  | update id u => exact h.answers_update id u
  | delete id name => exact h.answers_delete id name

theorem Sound.serves {c : Cluster} (h : c.Sound) (cluster : String) (call : Call) :
    Serves cluster ↑c.hosts ⟨call, (c.perform {} call).1⟩ ↑(c.perform {} call).2.hosts := by
  by_cases here : Call.addressee call = cluster
  · exact here ▸ (h.answers call).2
  · exact .elsewhere _ here

/-- With no effect queued, the cluster in memory serves every call faithfully. -/
theorem faithfulOn_server (cluster : String) :
    FaithfulOn cluster server (fun c => ↑c.hosts) Sound := by
  refine ⟨fun c h => h.wellNamed, fun c (call : Call) h => ?_, fun c (call : Call) h => ?_⟩
  · rw [h.serve_eq]
    exact (h.answers call).1
  · rw [h.serve_eq]
    exact h.serves cluster call

end HostRoster.Cluster
