import HostRoster.Proofs.Adoption
import Mathlib.Data.List.Dedup
import Mathlib.Logic.Basic

/-!
# A plan accounts for everything once

Between the listing and the plan, keys and hosts pass from one list to another several
times: hosts are sorted by name, tied to keys, taken over by keys without a name, compared
and deleted. None is lost on the way and none is doubled. Every declared key is created,
updated or left alone, and every listed name is that of one key's host or is deleted.
-/
namespace HostRoster

/-- Each desired key is in one of the three parts, once. -/
theorem Judged.perm_keys {actual : HostMap} {entries : List (String × HostRecord)} {d : HostDiff}
    (h : Judged actual entries d) :
    (d.toCreate.keys ++ d.toUpdate.map HostUpdate.key ++ d.unchanged).Perm
      (entries.map Prod.fst) := by
  rw [KeyMap.keys, h.creates, h.updates, h.unchanged, List.map_map]
  clear h
  induction entries with
  | nil => rfl
  | cons e rest ih =>
    cases found : actual.get? e.1 with
    | none =>
      simp only [List.filter_cons, List.filterMap_cons, found, Option.isNone_none, if_true,
        Option.bind_none, Option.any_none, Bool.false_eq_true, if_false, List.map_cons,
        List.cons_append]
      exact ih.cons e.1
    | some r =>
      cases change : updateFor e.1 e.2 r with
      | none =>
        simp only [List.filter_cons, List.filterMap_cons, found, change, Option.isNone_some,
          Option.isNone_none, Option.bind_some, Option.any_some, Bool.false_eq_true, if_false,
          if_true, List.map_cons]
        exact List.perm_middle.trans (ih.cons e.1)
      | some u =>
        simp only [List.filter_cons, List.filterMap_cons, found, change, Option.isNone_some,
          Option.bind_some, Option.any_some, Bool.false_eq_true, if_false, List.map_cons,
          (updateFor_eq_some change).1]
        rw [List.append_assoc] at ih ⊢
        exact List.perm_middle.trans (ih.cons e.1)

/-- The named hosts of a listing stand under their names. -/
theorem names_byName (listed : List HostRecord) :
    (byName listed).values.filterMap HostRecord.name = (byName listed).keys := by
  rw [KeyMap.values, List.filterMap_map, KeyMap.keys, ← List.filterMap_eq_map]
  exact List.filterMap_congr fun e he => (mem_byName he).2

theorem perm_keys_byName (listed : List HostRecord) :
    (byName listed).keys.Perm (listed.filterMap HostRecord.name).dedup := by
  refine (List.perm_ext_iff_of_nodup (KeyMap.nodup_keys _) (List.nodup_dedup _)).2 fun n => ?_
  rw [mem_keys_byName, List.mem_dedup, List.mem_filterMap]

namespace Correlation.Accounts

variable {c : Correlation} {wanted : HostMap} {listed : List HostRecord}

/-- Each listed name is that of one matched host or one orphan. -/
theorem perm_names (h : c.Accounts wanted listed) :
    (c.matched.values.filterMap HostRecord.name ++ c.orphanNames).Perm
      (listed.filterMap HostRecord.name).dedup := by
  have values : c.matched.values.Perm (c.pairs.map Prod.snd) := h.perm_matched.map Prod.snd
  have all := h.records.filterMap HostRecord.name
  rw [names_byName, List.filterMap_append] at all
  exact ((values.filterMap _).append_right _).trans (all.trans (perm_keys_byName listed))

end Correlation.Accounts

/-- The names in a host map are those of its keys. -/
theorem mem_names_values {m : HostMap} {n : String} :
    n ∈ m.values.filterMap HostRecord.name ↔ ∃ key, recordedName m key = some n := by
  simp only [List.mem_filterMap, KeyMap.values, List.mem_map, recordedName_eq_some]
  constructor
  · rintro ⟨host, ⟨e, he, rfl⟩, name⟩
    exact ⟨e.1, e.2, he, name⟩
  · rintro ⟨key, host, he, name⟩
    exact ⟨host, ⟨_, he, rfl⟩, name⟩

theorem WellNamed.key_unique {m : HostMap} (h : WellNamed (m.values : Multiset HostRecord))
    {n a b : String} (ha : recordedName m a = some n) (hb : recordedName m b = some n) : a = b := by
  obtain ⟨x, hx, xn⟩ := recordedName_eq_some.1 ha
  obtain ⟨y, hy, yn⟩ := recordedName_eq_some.1 hb
  exact congrArg Prod.fst (h.eq_of_entries hx hy (xn.trans yn.symm))

/-- The preparation deals with every declared key and every listed name, and with each once. -/
structure Prepared.AccountsOnce (p : Prepared) (desired : Declaration)
    (listed : List HostRecord) : Prop where
  /-- A declared key is created, updated or unchanged. -/
  keys : (p.diff.toCreate.keys ++ p.diff.toUpdate.map HostUpdate.key ++ p.diff.unchanged).Perm
    desired.keys
  /-- A declared key has a host or is created. -/
  hosts : (p.correlation.matched.keys ++ p.diff.toCreate.keys).Perm desired.keys
  /-- A listed name is that of a key's host or is deleted. -/
  names : (p.correlation.matched.values.filterMap HostRecord.name ++ p.diff.toDelete).Perm
    (listed.filterMap HostRecord.name).dedup
  /-- An update goes to the name of its own key's host. -/
  updates : ∀ u ∈ p.diff.toUpdate, recordedName p.correlation.matched u.key = some u.name
  /-- The plan consists of these creates, updates and deletes. -/
  actions : p.plan.actions = p.diff.actions

variable {r : Reconciler} {desired : Declaration} {prior : HostMap} {listed : List HostRecord}
  {p : Prepared}

theorem Reconciler.Prepares.accountsOnce (h : r.Prepares desired prior listed p) :
    p.AccountsOnce desired listed := by
  have c := correlate_accounts desired prior listed
  refine ⟨?_, ?_, ?_, fun u hu => ?_, by rw [h.plan]; rfl⟩
  · have keys := h.judged.perm_keys
    rwa [← KeyMap.keys, keys_mergePriorNames] at keys
  · have keys := c.keys
    rw [keys_mergePriorNames] at keys
    have matched : p.correlation.matched.keys.Perm
        ((correlate desired prior listed).pairs.map Prod.fst) :=
      h.correlation ▸ c.perm_matched.map Prod.fst
    exact (matched.append h.perm_creates).trans keys
  · rw [h.correlation, h.deletes]
    exact c.perm_names
  · obtain ⟨-, host, -, matched, name, -⟩ := h.update_addressed hu
    exact recordedName_eq_some.2 ⟨host, h.correlation ▸ matched, name⟩

namespace Prepared.AccountsOnce

/-- No name is matched twice, or both matched and deleted, or deleted twice. -/
theorem nodup_names (a : p.AccountsOnce desired listed) :
    (p.correlation.matched.values.filterMap HostRecord.name ++ p.diff.toDelete).Nodup :=
  a.names.nodup_iff.2 (List.nodup_dedup _)

theorem mem_names (a : p.AccountsOnce desired listed) {n : String} :
    n ∈ p.correlation.matched.values.filterMap HostRecord.name ∨ n ∈ p.diff.toDelete ↔
      n ∈ listed.filterMap HostRecord.name := by
  rw [← List.mem_append, a.names.mem_iff, List.mem_dedup]

end Prepared.AccountsOnce

/-- A preparation deals with every declared key and every listed name, and with each once. In
particular a listed name is either that of the host of one key or is to be deleted, and what is
to be deleted is listed and named once. -/
theorem prepare_accounts_once (prepared : r.prepare desired prior listed = .ok p) :
    p.AccountsOnce desired listed ∧
      (∀ n ∈ listed.filterMap HostRecord.name,
        Xor (∃! key, recordedName p.correlation.matched key = some n) (n ∈ p.diff.toDelete)) ∧
      p.diff.toDelete.Nodup ∧ ∀ n ∈ p.diff.toDelete, n ∈ listed.filterMap HostRecord.name := by
  have prepares := Reconciler.prepare_ok prepared
  have a := prepares.accountsOnce
  have wellNamed : WellNamed (p.correlation.matched.values : Multiset HostRecord) :=
    prepares.correlation ▸ (Reconciler.correlate_accounts desired prior listed).wellNamed_matched
  obtain ⟨-, deletes, apart⟩ := List.nodup_append.1 a.nodup_names
  refine ⟨a, fun n hn => ?_, deletes, fun n hn => a.mem_names.1 (.inr hn)⟩
  rcases a.mem_names.2 hn with matched | deleted
  · obtain ⟨key, known⟩ := mem_names_values.1 matched
    refine .inl ⟨⟨key, known, fun other same => wellNamed.key_unique same known⟩, fun deleted => ?_⟩
    exact apart n matched n deleted rfl
  · refine .inr ⟨deleted, ?_⟩
    rintro ⟨key, known, -⟩
    exact apart n (mem_names_values.2 ⟨key, known⟩) n deleted rfl

/-- Keys whose hosts are taken over, kept, created and updated. -/
def fourFates : Declaration :=
  .ofList [
    ("adopts", { zone := "x" }),
    ("keeps", { zone := "z" }),
    ("makes", { zone := "y" }),
    ("updates", { zone := "z", replicationSource := some "keeps" })]

/-- Two of these keys with a name, and a key that is no longer declared. -/
def recordedThree : HostMap :=
  .ofList [
    ("keeps", { zone := "z", assignedName := some "h1" }),
    ("retired", { zone := "x", assignedName := some "h3" }),
    ("updates", { zone := "z", assignedName := some "h2" })]

/-- A listing that shows one host twice and one without a name. -/
def untidyListing : List HostRecord :=
  [{ zone := "z", assignedName := some "h2" }, { zone := "q" },
    { zone := "x", assignedName := some "h4" }, { zone := "x", assignedName := some "h3" },
    { zone := "z", assignedName := some "h1" }, { zone := "z", assignedName := some "h2" }]

/-- Of the four keys one is created, one updated and two are left alone, one of these with a host
that it takes over. -/
theorem prepares_untidy :
    ∃ p, ({} : Reconciler).prepare fourFates recordedThree untidyListing = .ok p ∧
      p.diff.toCreate.keys = ["makes"] ∧ p.diff.toUpdate.map HostUpdate.key = ["updates"] ∧
      p.diff.toUpdate.map HostUpdate.summary = ["updates (h2): replication_source"] ∧
      p.diff.unchanged = ["adopts", "keeps"] ∧ p.diff.toDelete = ["h3"] := by
  -- sorting is by well-founded recursion, so the orphans are sorted by a lemma first
  have sorted : (Reconciler.correlateNamed fourFates recordedThree untidyListing).offered =
      [{ zone := "x", assignedName := some "h3" }, { zone := "x", assignedName := some "h4" }] := by
    have orphans : (Reconciler.correlateNamed fourFates recordedThree untidyListing).orphans =
        [{ zone := "x", assignedName := some "h3" },
          { zone := "x", assignedName := some "h4" }] := by
      decide +kernel
    rw [Correlation.offered, orphans]
    exact List.mergeSort_of_pairwise (by decide)
  rw [Correlation.offered, Reconciler.correlateNamed] at sorted
  rw [Reconciler.prepare_eq, Reconciler.correlate, Correlation.adoptOrphans]
  simp only [sorted]
  exact ⟨_, rfl, by decide +kernel⟩

/-- The keys and names of an untidy listing, each in its place. -/
theorem prepare_accounts_once_untidy :
    ∃ p, ({} : Reconciler).prepare fourFates recordedThree untidyListing = .ok p ∧
      p.AccountsOnce fourFates untidyListing ∧
      (∀ n ∈ untidyListing.filterMap HostRecord.name,
        Xor (∃! key, recordedName p.correlation.matched key = some n) (n ∈ p.diff.toDelete)) ∧
      p.diff.toCreate.keys = ["makes"] ∧ p.diff.toUpdate.map HostUpdate.key = ["updates"] ∧
      p.diff.unchanged = ["adopts", "keeps"] ∧ p.diff.toDelete = ["h3"] := by
  obtain ⟨p, prepared, creates, updates, -, others⟩ := prepares_untidy
  obtain ⟨once, apart, -⟩ := prepare_accounts_once prepared
  exact ⟨p, prepared, once, apart, creates, updates, others⟩

end HostRoster
