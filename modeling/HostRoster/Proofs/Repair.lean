import HostRoster.Proofs.Accounting
import HostRoster.Proofs.Faithful

/-!
# A difference is a repair

A difference says which hosts to create, to update and to delete. When that has been done there is
nothing left to do: compared with the hosts as they are then, every desired key is unchanged. It
does not matter how an update is carried out, by the fields that its mask names or by overwriting
all that can change, since the fields that differ are exactly those that the mask names.
-/
namespace HostRoster

namespace HostField

/-- The field is one of those that a mask names, with commas between them. -/
def IsNamedIn (f : HostField) (mask : String) : Prop := f.maskName.toList ∈ mask.toList.splitOn ','

instance (f : HostField) (mask : String) : Decidable (f.IsNamedIn mask) :=
  inferInstanceAs (Decidable (_ ∈ _))

theorem maskName_inj {f g : HostField} : f.maskName = g.maskName ↔ f = g := by
  cases f <;> cases g <;> decide

theorem toList_maskName_ne_nil (f : HostField) : f.maskName.toList ≠ [] := by
  cases f <;> decide

theorem comma_not_mem_maskName (f : HostField) : ',' ∉ f.maskName.toList := by
  cases f <;> decide

/-- The mask of an update names the fields that it changes. -/
theorem isNamedIn_mask {f : HostField} {u : HostUpdate} : f.IsNamedIn u.mask ↔ f ∈ u.changed := by
  have names : u.mask.toList = [','].intercalate (u.changed.map fun g => g.maskName.toList) := by
    rw [HostUpdate.mask, String.toList_intercalate, List.map_map]
    rfl
  rw [IsNamedIn, names]
  cases changed : u.changed with
  | nil => simpa using f.toList_maskName_ne_nil
  | cons g rest =>
    have apart : ∀ name ∈ (g :: rest).map fun g => g.maskName.toList, ',' ∉ name := by
      intro name mem
      obtain ⟨h, -, rfl⟩ := List.mem_map.1 mem
      exact h.comma_not_mem_maskName
    rw [List.splitOn_intercalate ',' apart (by simp), List.mem_map]
    constructor
    · rintro ⟨h, mem, same⟩
      obtain rfl := maskName_inj.1 (String.toList_inj.1 same)
      exact mem
    · exact fun mem => ⟨f, mem, rfl⟩

end HostField

/-- Sets the fields that the mask of an update names to the values of the update, and no others. -/
def HostRecord.applyMasked (r : HostRecord) (u : HostUpdate) : HostRecord :=
  { r with
    assignPublicIp :=
      if HostField.assignPublicIp.IsNamedIn u.mask then u.assignPublicIp else r.assignPublicIp
    replicationSource :=
      if HostField.replicationSource.IsNamedIn u.mask then u.replicationSource
      else r.replicationSource }

/-- For the host that it was made for, an update comes to the same by its mask as a whole. -/
theorem applyMasked_eq_applyUpdate {key : String} {wanted current : HostRecord} {u : HostUpdate}
    (asked : updateFor key wanted current = some u) :
    current.applyMasked u = current.applyUpdate u := by
  obtain ⟨-, -, flag, source, changed⟩ := updateFor_eq_some asked
  have flagNamed : HostField.assignPublicIp.IsNamedIn u.mask ↔
      wanted.assignPublicIp ≠ current.assignPublicIp := by
    rw [HostField.isNamedIn_mask, changed]
    simp [changedFields]
  have sourceNamed : HostField.replicationSource.IsNamedIn u.mask ↔
      wanted.replicationSource ≠ current.replicationSource := by
    rw [HostField.isNamedIn_mask, changed]
    simp [changedFields]
  simp only [HostRecord.applyMasked, HostRecord.applyUpdate, flagNamed, sourceNamed, flag, source,
    ite_not]
  congr 2
  · split <;> simp [*]
  · split <;> simp [*]

theorem surplusNames_ok {desired : HostMap} {entries : List (String × HostRecord)}
    {names : List String} (done : surplusNames desired entries = .ok names) :
    names.map some =
      (entries.filter fun e => !desired.contains e.1).map fun e => e.2.name := by
  induction entries generalizing names with
  | nil =>
    cases done
    rfl
  | cons e rest ih =>
    obtain ⟨key, current⟩ := e
    rw [surplusNames] at done
    by_cases declared : desired.contains key = true
    · rw [if_pos declared] at done
      simpa [declared] using ih done
    · rw [if_neg declared] at done
      cases name : current.name with
      | none => simp [name] at done
      | some n =>
        cases tail : surplusNames desired rest with
        | error e => simp [name, tail, Except.map] at done
        | ok others =>
          simp only [name, tail, Except.map, Except.ok.injEq] at done
          subst done
          simpa [declared, name] using ih tail

/-- The parts of a difference between two host maps. -/
theorem computeDiff_ok {desired actual : HostMap} {d : HostDiff}
    (computed : computeDiff desired actual = .ok d) :
    Judged actual desired.entries d ∧ d.toDelete.map some =
      (actual.entries.filter fun e => !desired.contains e.1).map fun e => e.2.name := by
  unfold computeDiff at computed
  cases judged : judgeAll actual desired.entries with
  | error e => simp [judged, bind, Except.bind] at computed
  | ok before =>
    cases surplus : surplusNames desired actual.entries with
    | error e => simp [judged, surplus, bind, Except.bind] at computed
    | ok names =>
      simp only [judged, surplus, bind, Except.bind, pure, Except.pure, Except.ok.injEq] at computed
      subst computed
      have parts := (judgeAll_ok desired.ascending judged).1
      exact ⟨⟨parts.creates, parts.updates, parts.unchanged, parts.placed⟩, surplusNames_ok surplus⟩

/-- The key of a desired host has a named host that stands where it should and needs no update. -/
def UpToDate (actual : HostMap) (e : String × HostRecord) : Prop :=
  ∃ r, actual.get? e.1 = some r ∧ r.name.isSome ∧
    placementChange e.2.toHostSpec r.toHostSpec = none ∧ updateFor e.1 e.2 r = none

theorem judgeAll_of_upToDate {actual : HostMap} {entries : List (String × HostRecord)}
    (current : ∀ e ∈ entries, UpToDate actual e) :
    judgeAll actual entries = .ok { unchanged := entries.map Prod.fst } := by
  induction entries with
  | nil => rfl
  | cons e rest ih =>
    obtain ⟨⟨r, found, named, placed, same⟩, others⟩ := List.forall_mem_cons.1 current
    refine judgeAll_cons_eq_ok.2 ⟨.keep, _, ?_, ih others, rfl⟩
    exact judge_eq_ok.2 (.inr ⟨r, found, named, placed, by rw [same]; rfl⟩)

/-- Where every desired key is up to date and no other key has a host, all is unchanged. -/
theorem computeDiff_of_upToDate {desired actual : HostMap}
    (current : ∀ e ∈ desired.entries, UpToDate actual e)
    (declared : ∀ key ∈ actual.keys, key ∈ desired.keys) :
    computeDiff desired actual = .ok { unchanged := desired.keys } := by
  have surplus : surplusNames desired actual.entries = .ok [] :=
    surplusNames_eq_nil fun e he => declared e.1 (KeyMap.mem_keys_of_mem he)
  rw [computeDiff, judgeAll_of_upToDate current, surplus]
  rfl

namespace HostDiff

/-- Hosts as they may be made for the keys to create: each of its key's spec and with a name. -/
structure Supplies (d : HostDiff) (made : HostMap) : Prop where
  keys : made.keys = d.toCreate.keys
  named : ∀ r ∈ made.values, r.name.isSome
  realizes : ∀ key s r, d.toCreate.get? key = some s → made.get? key = some r → Realizes s r

/-- The update of a key, if there is one. -/
def updateOf? (d : HostDiff) (key : String) : Option HostUpdate :=
  d.toUpdate.find? fun u => u.key == key

/-- A host that was there before and whose name is to be deleted. A host that has been made for a
key is not meant, whatever its name is. -/
def drops (d : HostDiff) (actual : HostMap) (key : String) (r : HostRecord) : Bool :=
  actual.contains key && r.name.any d.toDelete.contains

/-- The hosts after a difference has been dealt with: those made are put in, of those to update the
masked fields are set, and those to delete are taken out. -/
def repair (d : HostDiff) (actual made : HostMap) : HostMap :=
  ((actual.insertAll made.entries).map fun key r => (d.updateOf? key).elim r r.applyMasked).filter
    fun key r => !d.drops actual key r

variable {d : HostDiff} {desired actual made : HostMap} {key : String}

@[simp] theorem name_updated (u : Option HostUpdate) (r : HostRecord) :
    (u.elim r r.applyMasked).name = r.name := by
  cases u <;> rfl

/-- The host of a key in the repaired map. -/
theorem get?_repair (d : HostDiff) (actual made : HostMap) (key : String) :
    (d.repair actual made).get? key =
      (((made.get? key).or (actual.get? key)).map fun r =>
        (d.updateOf? key).elim r r.applyMasked).filter fun r => !d.drops actual key r := by
  rw [repair, KeyMap.get?_filter, KeyMap.get?_map, KeyMap.get?_insertAll_entries]

/-- A host that is not dropped is there, after the update of its key if this has one. -/
theorem get?_repair_of_kept {r : HostRecord}
    (found : (made.get? key).or (actual.get? key) = some r) (kept : d.drops actual key r = false) :
    (d.repair actual made).get? key = some ((d.updateOf? key).elim r r.applyMasked) := by
  have same : d.drops actual key ((d.updateOf? key).elim r r.applyMasked) = false := by
    rw [← kept, drops, drops, name_updated]
  rw [get?_repair, found, Option.map_some, Option.filter_some, if_pos (by rw [same]; rfl)]

/-- The update of a desired key is the one that its two hosts ask for. -/
theorem updateOf?_eq (judged : Judged actual desired.entries d) {wanted : HostRecord}
    (declared : (key, wanted) ∈ desired.entries) :
    d.updateOf? key = (actual.get? key).bind (updateFor key wanted) := by
  have of_found : ∀ u, d.updateOf? key = some u →
      (actual.get? key).bind (updateFor key wanted) = some u := by
    intro u found
    obtain rfl : u.key = key := by simpa using List.find?_some found
    obtain ⟨wanted', r, here, there, asked⟩ :=
      judged.mem_updates.1 (List.mem_of_find?_eq_some found)
    obtain rfl := KeyMap.eq_of_mem here declared
    rw [KeyMap.get?_eq_some.2 there]
    exact asked
  refine Option.ext fun u => ⟨of_found u, fun asked => ?_⟩
  obtain ⟨r, there, update⟩ := Option.bind_eq_some_iff.1 asked
  obtain rfl := (updateFor_eq_some update).1
  have mem : u ∈ d.toUpdate :=
    judged.mem_updates.2 ⟨wanted, r, declared, KeyMap.get?_eq_some.1 there, update⟩
  obtain ⟨v, found⟩ : ∃ v, d.updateOf? u.key = some v :=
    Option.isSome_iff_exists.1 (List.find?_isSome.2 ⟨u, mem, beq_self_eq_true _⟩)
  rw [found, ← of_found v found, asked]

theorem mem_toCreate (judged : Judged actual desired.entries d) {s : HostSpec} :
    (key, s) ∈ d.toCreate.entries ↔ ∃ wanted, (key, wanted) ∈ desired.entries ∧
      actual.get? key = none ∧ wanted.toHostSpec = s := by
  rw [judged.creates]
  simp only [List.mem_map, List.mem_filter, Option.isNone_iff_eq_none, Prod.mk.injEq]
  constructor
  · rintro ⟨e, ⟨declared, missing⟩, rfl, rfl⟩
    exact ⟨e.2, declared, missing, rfl⟩
  · rintro ⟨wanted, declared, missing, rfl⟩
    exact ⟨(key, wanted), ⟨declared, missing⟩, rfl, rfl⟩

/-- A name is deleted exactly if it is that of a host whose key is not desired. -/
theorem mem_toDelete (deletes : d.toDelete.map some =
      (actual.entries.filter fun e => !desired.contains e.1).map fun e => e.2.name) {n : String} :
    n ∈ d.toDelete ↔ ∃ e ∈ actual.entries, e.1 ∉ desired.keys ∧ e.2.name = some n := by
  rw [← List.mem_map_of_injective (Option.some_injective _), deletes]
  simp only [List.mem_map, List.mem_filter, and_assoc, Bool.not_eq_true', ← KeyMap.contains_iff,
    Bool.not_eq_true]

section Repaired
variable (supplied : d.Supplies made) (judged : Judged actual desired.entries d)
include supplied judged

/-- A host is made for each desired key that has none, and for no other key. -/
theorem Supplies.get?_eq_none (there : actual.get? key ≠ none ∨ key ∉ desired.keys) :
    made.get? key = none := by
  refine KeyMap.get?_eq_none.2 fun mem => ?_
  rw [supplied.keys] at mem
  obtain ⟨s, created⟩ := KeyMap.mem_keys.1 mem
  obtain ⟨wanted, declared, missing, -⟩ := (mem_toCreate judged).1 created
  exact there.elim (· missing) (· (KeyMap.mem_keys_of_mem declared))

theorem Supplies.exists_made {wanted : HostRecord} (declared : (key, wanted) ∈ desired.entries)
    (missing : actual.get? key = none) :
    ∃ r, made.get? key = some r ∧ r.name.isSome ∧ Realizes wanted.toHostSpec r := by
  have created := (mem_toCreate judged).2 ⟨wanted, declared, missing, rfl⟩
  obtain ⟨r, mem⟩ := KeyMap.mem_keys.1 (supplied.keys ▸ KeyMap.mem_keys_of_mem created)
  have found := KeyMap.get?_eq_some.2 mem
  exact ⟨r, found, supplied.named r (KeyMap.mem_values_of_mem mem),
    supplied.realizes key _ r (KeyMap.get?_eq_some.2 created) found⟩

/-- Once the difference has been dealt with, a desired key has the host that it asks for. -/
theorem upToDate_repair (distinct : WellNamed (actual.values : Multiset HostRecord))
    (deletes : d.toDelete.map some =
      (actual.entries.filter fun e => !desired.contains e.1).map fun e => e.2.name)
    {wanted : HostRecord} (declared : (key, wanted) ∈ desired.entries) :
    UpToDate (d.repair actual made) (key, wanted) := by
  have update := updateOf?_eq judged declared
  cases there : actual.get? key with
  | none =>
    obtain ⟨r, found, named, realizes⟩ := supplied.exists_made judged declared there
    have unknown : d.drops actual key r = false := by
      rw [drops, Bool.and_eq_false_iff]
      exact .inl (by simpa [← KeyMap.contains_iff] using KeyMap.get?_eq_none.1 there)
    refine ⟨r, ?_, named, placementChange_eq_none.2 ⟨realizes.zone.symm, realizes.subnet⟩,
      updateFor_eq_none.2 ⟨realizes.assignPublicIp.symm, realizes.replicationSource.symm⟩⟩
    rw [get?_repair_of_kept (by rw [found]; rfl) unknown, update, there]
    rfl
  | some r =>
    obtain ⟨named, placed⟩ := judged.placed _ declared r there
    have unmade : made.get? key = none := supplied.get?_eq_none judged (.inl (by simp [there]))
    have spared : d.drops actual key r = false := by
      refine Bool.eq_false_iff.2 fun dropped => ?_
      obtain ⟨n, name, deleted⟩ := (Option.any_eq_true ..).1 (Bool.and_eq_true_iff.1 dropped).2
      obtain ⟨e, mem, undeclared, same⟩ :=
        (mem_toDelete deletes).1 (List.contains_iff_mem.1 deleted)
      obtain rfl := distinct.eq_of_entries mem (KeyMap.get?_eq_some.1 there)
        (same.trans name.symm)
      exact undeclared (KeyMap.mem_keys.2 ⟨wanted, declared⟩)
    have repaired := get?_repair_of_kept (by rw [unmade, there]; rfl) spared
    rw [update, there, Option.bind_some] at repaired
    cases asked : updateFor key wanted r with
    | none =>
      rw [asked] at repaired
      exact ⟨r, repaired, named, placed, asked⟩
    | some u =>
      obtain ⟨-, -, flag, source, -⟩ := updateFor_eq_some asked
      rw [asked, Option.elim_some, applyMasked_eq_applyUpdate asked] at repaired
      exact ⟨r.applyUpdate u, repaired, named, placed,
        updateFor_eq_none.2 ⟨flag.symm, source.symm⟩⟩

/-- Once the difference has been dealt with, no other key has a host. -/
theorem mem_keys_of_repair
    (deletes : d.toDelete.map some =
      (actual.entries.filter fun e => !desired.contains e.1).map fun e => e.2.name)
    (mem : key ∈ (d.repair actual made).keys) : key ∈ desired.keys := by
  by_contra undeclared
  obtain ⟨left, found⟩ := KeyMap.mem_keys.1 mem
  have repaired := get?_repair d actual made key
  rw [KeyMap.get?_eq_some.2 found, supplied.get?_eq_none judged (.inr undeclared),
    Option.none_or] at repaired
  obtain ⟨updated, kept⟩ := Option.filter_eq_some_iff.1 repaired.symm
  obtain ⟨r, there, rfl⟩ := Option.map_eq_some_iff.1 updated
  have here := KeyMap.get?_eq_some.1 there
  obtain ⟨n, deleted, name⟩ : ∃ n ∈ d.toDelete, some n = r.name := by
    refine List.mem_map.1 (deletes ▸ List.mem_map.2 ⟨_, List.mem_filter.2 ⟨here, ?_⟩, rfl⟩)
    simpa [← KeyMap.contains_iff] using undeclared
  have known : actual.contains key = true := KeyMap.contains_iff.2 (KeyMap.mem_keys_of_mem here)
  simp [drops, known, ← name, deleted] at kept

end Repaired

/-- How a difference repairs the hosts that it was computed for. -/
structure Repairs (d : HostDiff) (desired actual : HostMap) : Prop where
  /-- Each desired key is in one of the three parts, once. -/
  keys : (d.toCreate.keys ++ d.toUpdate.map HostUpdate.key ++ d.unchanged).Perm desired.keys
  /-- The names to delete are those of the hosts whose keys are not desired, in key order. -/
  deletes : d.toDelete.map some =
    (actual.entries.filter fun e => !desired.contains e.1).map fun e => e.2.name
  /-- Every update is for the host of its key, for which it comes to the same by its mask as a
  whole. -/
  masked : ∀ u ∈ d.toUpdate, ∃ r, actual.get? u.key = some r ∧ r.name = some u.name ∧
    r.applyMasked u = r.applyUpdate u
  /-- When it has been dealt with every desired key is unchanged and there is nothing else to do. -/
  settles : ∀ made, d.Supplies made →
    computeDiff desired (d.repair actual made) = .ok { unchanged := desired.keys }

end HostDiff

/-- A difference between desired hosts and named ones, no two of one name, is a repair. -/
theorem computeDiff_repairs {desired actual : HostMap} {d : HostDiff}
    (distinct : WellNamed (actual.values : Multiset HostRecord))
    (computed : computeDiff desired actual = .ok d) : d.Repairs desired actual := by
  obtain ⟨judged, deletes⟩ := computeDiff_ok computed
  refine ⟨judged.perm_keys, deletes, fun u mem => ?_, fun made supplied => ?_⟩
  · obtain ⟨wanted, r, -, there, asked⟩ := judged.mem_updates.1 mem
    obtain ⟨n, name⟩ := Option.isSome_iff_exists.1
      (distinct.named r (KeyMap.mem_values_of_mem there))
    refine ⟨r, KeyMap.get?_eq_some.2 there, ?_, applyMasked_eq_applyUpdate asked⟩
    rw [(updateFor_eq_some asked).2.1, name, Option.getD_some]
  · exact computeDiff_of_upToDate
      (fun e declared => HostDiff.upToDate_repair supplied judged distinct deletes declared)
      (fun key mem => HostDiff.mem_keys_of_repair supplied judged deletes mem)

/-- Keys that are to be made, kept and updated in one field or in two. -/
def declaredHosts : HostMap :=
  .ofList [
    ("follows", { zone := "z", replicationSource := some "keeps" }),
    ("keeps", { zone := "z" }),
    ("makes", { zone := "y" }),
    ("opens", { zone := "z", assignPublicIp := true, replicationSource := some "keeps" })]

/-- Hosts of three of these keys and of one that is not declared. -/
def foundHosts : HostMap :=
  .ofList [
    ("follows", { zone := "z", assignedName := some "h3" }),
    ("keeps", { zone := "z", subnetId := some "s", assignedName := some "h1" }),
    ("leaves", { zone := "x", assignedName := some "h9" }),
    ("opens", { zone := "z", assignedName := some "h2" })]

/-- A host for the one key without, in a subnet of its own and under a name that is given up. -/
def suppliedHosts : HostMap :=
  .ofList [("makes", { zone := "y", subnetId := some "t", assignedName := some "h9" })]

theorem computeDiff_repairs_foundHosts :
    ∃ d, WellNamed (foundHosts.values : Multiset HostRecord) ∧
      computeDiff declaredHosts foundHosts = .ok d ∧ d.Repairs declaredHosts foundHosts ∧
      d.toDelete = ["h9"] ∧ d.toUpdate.map HostUpdate.mask =
        ["replicationSource", "assignPublicIp,replicationSource"] ∧
      computeDiff declaredHosts (d.repair foundHosts suppliedHosts) =
        .ok { unchanged := ["follows", "keeps", "makes", "opens"] } := by
  have distinct : WellNamed (foundHosts.values : Multiset HostRecord) := by
    constructor <;> decide +kernel
  have evaluated : ∃ d, computeDiff declaredHosts foundHosts = .ok d ∧ d.toDelete = ["h9"] ∧
      d.toUpdate.map HostUpdate.mask =
        ["replicationSource", "assignPublicIp,replicationSource"] ∧
      d.toCreate = .ofList [("makes", { zone := "y" })] :=
    ⟨_, rfl, by decide +kernel⟩
  obtain ⟨d, computed, deletes, masks, creates⟩ := evaluated
  have repairs := computeDiff_repairs distinct computed
  have supplied : d.Supplies suppliedHosts := by
    refine ⟨?_, by decide +kernel, fun key s r asked found => ?_⟩
    · rw [creates]
      decide +kernel
    · rw [creates] at asked
      have entry := KeyMap.mem_of_mem_ofList (KeyMap.get?_eq_some.1 asked)
      obtain ⟨rfl, rfl⟩ := Prod.mk.inj (List.mem_singleton.1 entry)
      have made : suppliedHosts.get? "makes" =
        some { zone := "y", subnetId := some "t", assignedName := some "h9" } := by decide +kernel
      obtain rfl := Option.some.inj (found.symm.trans made)
      exact ⟨rfl, .inl rfl, rfl, rfl⟩
  exact ⟨d, distinct, computed, repairs, deletes, masks, repairs.settles _ supplied⟩

end HostRoster
