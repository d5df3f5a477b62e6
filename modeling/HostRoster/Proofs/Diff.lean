import HostRoster.Plan
import HostRoster.Proofs.Correlation

/-!
# What a difference consists of

Every desired key is judged once, in key order: it is created if it has no host,
and else it is updated or left unchanged. The parts of a difference are therefore
the desired entries sifted by their verdicts, and nothing but the placement of a
named host can keep a difference from being computed.
-/
namespace HostRoster

theorem KeyMap.entries_insert_first {κ α : Type} [Ord κ] [Std.TransOrd κ] {m : KeyMap κ α} {k : κ}
    (h : ∀ e ∈ m.entries, compare k e.1 = .lt) (v : α) :
    (m.insert k v).entries = (k, v) :: m.entries := by
  obtain ⟨entries, ascending⟩ := m
  cases entries with
  | nil => rfl
  | cons e rest => simp [insert, place, h e (.head _)]

theorem placementChange_eq_none {wanted current : HostSpec} :
    placementChange wanted current = none ↔ wanted.zone = current.zone ∧
      (wanted.subnetId = none ∨ current.subnetId = wanted.subnetId) := by
  rw [placementChange]
  split
  next other => simp [other]
  next same =>
    have zone : wanted.zone = current.zone := not_not.1 same
    cases subnet : wanted.subnetId with
    | none => simp [zone]
    | some s => simp [zone]

/-- The update that a desired host asks of the actual host under its key, if any. -/
def updateFor (key : String) (wanted current : HostRecord) : Option HostUpdate :=
  let changed := changedFields wanted.toHostSpec current.toHostSpec
  if changed.isEmpty then none
  else some ⟨key, current.name.getD "", wanted.assignPublicIp, wanted.replicationSource, changed⟩

theorem updateFor_eq_none {key : String} {wanted current : HostRecord} :
    updateFor key wanted current = none ↔ wanted.assignPublicIp = current.assignPublicIp ∧
      wanted.replicationSource = current.replicationSource := by
  simp [updateFor, changedFields]

theorem updateFor_eq_some {key : String} {wanted current : HostRecord} {u : HostUpdate}
    (h : updateFor key wanted current = some u) :
    u.key = key ∧ u.name = current.name.getD "" ∧ u.assignPublicIp = wanted.assignPublicIp ∧
      u.replicationSource = wanted.replicationSource ∧
      u.changed = changedFields wanted.toHostSpec current.toHostSpec := by
  simp only [updateFor] at h
  split at h
  · simp at h
  · obtain rfl := Option.some.inj h
    exact ⟨rfl, rfl, rfl, rfl, rfl⟩

/-- A host whose flag is right can only need another replication source. -/
theorem updateFor_of_flag {wanted current : HostRecord}
    (flag : wanted.assignPublicIp = current.assignPublicIp) (key : String) :
    updateFor key wanted current =
      if wanted.replicationSource = current.replicationSource then none
      else some ⟨key, current.name.getD "", wanted.assignPublicIp, wanted.replicationSource,
        [.replicationSource]⟩ := by
  by_cases source : wanted.replicationSource = current.replicationSource <;>
    simp [updateFor, changedFields, flag, source]

/-- The verdict on a key with an actual host. -/
theorem judge_some (key : String) (wanted current : HostRecord) :
    judge key wanted (some current) =
      match current.name with
      | none => .error (.missingName key)
      | some name =>
        match placementChange wanted.toHostSpec current.toHostSpec with
        | some (field, desired, actual) => .error (.placementChanged key name field desired actual)
        | none => .ok ((updateFor key wanted current).elim .keep .update) := by
  cases name : current.name with
  | none => simp [judge, name]
  | some n =>
    cases placed : placementChange wanted.toHostSpec current.toHostSpec with
    | some change => simp [judge, name, placed]
    | none =>
      simp only [judge, name, placed, updateFor, Option.getD_some]
      split <;> rfl

/-- A key is judged if it has no actual host, or one with a name that stands where it should. -/
theorem judge_eq_ok {key : String} {wanted : HostRecord} {current : Option HostRecord} {v : Verdict} :
    judge key wanted current = .ok v ↔ current = none ∧ v = .create ∨
      ∃ r, current = some r ∧ r.name.isSome ∧
        placementChange wanted.toHostSpec r.toHostSpec = none ∧
        v = (updateFor key wanted r).elim .keep .update := by
  cases current with
  | none => simp [judge, @eq_comm _ v]
  | some r =>
    rw [judge_some]
    cases name : r.name with
    | none => simp [name]
    | some n =>
      cases placed : placementChange wanted.toHostSpec r.toHostSpec with
      | some change => simp [placed]
      | none => simp [name, placed, @eq_comm _ v]

/-- A named host fails its key only by its placement. -/
theorem judge_eq_error {key : String} {wanted : HostRecord} {current : Option HostRecord}
    {e : ReconcileError} (named : ∀ r, current = some r → r.name.isSome) :
    judge key wanted current = .error e ↔ ∃ r n field desired found, current = some r ∧
      r.name = some n ∧
      placementChange wanted.toHostSpec r.toHostSpec = some (field, desired, found) ∧
      e = .placementChanged key n field desired found := by
  cases current with
  | none => simp [judge]
  | some r =>
    obtain ⟨n, name⟩ := Option.isSome_iff_exists.1 (named r rfl)
    rw [judge_some]
    cases placed : placementChange wanted.toHostSpec r.toHostSpec with
    | some change =>
      obtain ⟨field, desired, found⟩ := change
      simp [name, placed, @eq_comm _ e]
    | none => simp [name, placed]

/-- A key passes if its actual host, should there be one, stands where it should. -/
theorem judge_passes_iff {key : String} {wanted : HostRecord} {current : Option HostRecord}
    (named : ∀ r, current = some r → r.name.isSome) :
    (∃ v, judge key wanted current = .ok v) ↔
      ∀ r, current = some r → placementChange wanted.toHostSpec r.toHostSpec = none := by
  cases current with
  | none => simp [judge]
  | some r => simp [judge_eq_ok, named r rfl]

/-- A difference with the verdict on one key more. -/
def HostDiff.adding (d : HostDiff) (key : String) (wanted : HostRecord) : Verdict → HostDiff
  | .create => { d with toCreate := d.toCreate.insert key wanted.toHostSpec }
  | .update u => { d with toUpdate := u :: d.toUpdate }
  | .keep => { d with unchanged := key :: d.unchanged }

theorem judgeAll_cons (actual : HostMap) (key : String) (wanted : HostRecord)
    (rest : List (String × HostRecord)) :
    judgeAll actual ((key, wanted) :: rest) =
      (judge key wanted (actual.get? key)).bind fun v =>
        (judgeAll actual rest).map fun d => d.adding key wanted v := by
  rw [judgeAll]
  cases judge key wanted (actual.get? key) with
  | error e => rfl
  | ok v => cases judgeAll actual rest <;> cases v <;> rfl

theorem judgeAll_cons_eq_ok {actual : HostMap} {key : String} {wanted : HostRecord}
    {rest : List (String × HostRecord)} {d : HostDiff} :
    judgeAll actual ((key, wanted) :: rest) = .ok d ↔ ∃ v before,
      judge key wanted (actual.get? key) = .ok v ∧ judgeAll actual rest = .ok before ∧
      d = before.adding key wanted v := by
  rw [judgeAll_cons]
  cases judge key wanted (actual.get? key) with
  | error e => simp [Except.bind]
  | ok v => cases judgeAll actual rest <;> simp [Except.bind, Except.map, eq_comm]

theorem judgeAll_cons_eq_error {actual : HostMap} {key : String} {wanted : HostRecord}
    {rest : List (String × HostRecord)} {e : ReconcileError} :
    judgeAll actual ((key, wanted) :: rest) = .error e ↔
      judge key wanted (actual.get? key) = .error e ∨
      (∃ v, judge key wanted (actual.get? key) = .ok v) ∧ judgeAll actual rest = .error e := by
  rw [judgeAll_cons]
  cases judge key wanted (actual.get? key) with
  | error e' => simp [Except.bind]
  | ok v => cases judgeAll actual rest <;> simp [Except.bind, Except.map]

/-- The actual host under the entry's key, if there is one, has a name and stands where it should. -/
def InPlace (actual : HostMap) (e : String × HostRecord) : Prop :=
  ∀ r, actual.get? e.1 = some r → r.name.isSome ∧
    placementChange e.2.toHostSpec r.toHostSpec = none

/-- The parts of a difference between desired entries and actual hosts. -/
structure Judged (actual : HostMap) (entries : List (String × HostRecord)) (d : HostDiff) :
    Prop where
  creates : d.toCreate.entries =
    (entries.filter fun e => (actual.get? e.1).isNone).map fun e => (e.1, e.2.toHostSpec)
  updates : d.toUpdate = entries.filterMap fun e => (actual.get? e.1).bind (updateFor e.1 e.2)
  unchanged : d.unchanged = (entries.filter fun e =>
    (actual.get? e.1).any fun r => (updateFor e.1 e.2 r).isNone).map Prod.fst
  placed : ∀ e ∈ entries, InPlace actual e

theorem judgeAll_ok {actual : HostMap} {entries : List (String × HostRecord)} {d : HostDiff}
    (ascending : entries.Pairwise fun a b => compare a.1 b.1 = .lt)
    (h : judgeAll actual entries = .ok d) : Judged actual entries d ∧ d.toDelete = [] := by
  induction entries generalizing d with
  | nil =>
    cases h
    exact ⟨⟨rfl, rfl, rfl, by simp⟩, rfl⟩
  | cons e rest ih =>
    obtain ⟨key, wanted⟩ := e
    obtain ⟨first, others⟩ := List.pairwise_cons.1 ascending
    obtain ⟨v, before, verdict, tail, rfl⟩ := judgeAll_cons_eq_ok.1 h
    obtain ⟨parts, deletes⟩ := ih others tail
    rcases judge_eq_ok.1 verdict with ⟨found, rfl⟩ | ⟨current, found, named, placed, rfl⟩
    · have lead : ∀ e ∈ before.toCreate.entries, compare key e.1 = .lt := by
        intro e he
        rw [parts.creates] at he
        obtain ⟨f, hf, rfl⟩ := List.mem_map.1 he
        exact first f (List.mem_filter.1 hf).1
      refine ⟨⟨?_, ?_, ?_, ?_⟩, deletes⟩
      · simp [HostDiff.adding, KeyMap.entries_insert_first lead, parts.creates, found]
      · simpa [HostDiff.adding, found] using parts.updates
      · simpa [HostDiff.adding, found] using parts.unchanged
      · refine List.forall_mem_cons.2 ⟨fun r hr => ?_, parts.placed⟩
        simp [found] at hr
    · have settled : ∀ e ∈ (key, wanted) :: rest, InPlace actual e := by
        refine List.forall_mem_cons.2 ⟨fun r hr => ?_, parts.placed⟩
        obtain rfl := Option.some.inj (found.symm.trans hr)
        exact ⟨named, placed⟩
      cases change : updateFor key wanted current with
      | none =>
        refine ⟨⟨?_, ?_, ?_, settled⟩, deletes⟩
        · simpa [HostDiff.adding, found] using parts.creates
        · simpa [HostDiff.adding, found, change] using parts.updates
        · simp [HostDiff.adding, found, change, parts.unchanged]
      | some u =>
        refine ⟨⟨?_, ?_, ?_, settled⟩, deletes⟩
        · simpa [HostDiff.adding, found] using parts.creates
        · simp [HostDiff.adding, found, change, parts.updates]
        · simpa [HostDiff.adding, found, change] using parts.unchanged

/-- A difference fails as the first of its keys that fails. -/
theorem judgeAll_eq_error {actual : HostMap} {entries : List (String × HostRecord)}
    {e : ReconcileError} : judgeAll actual entries = .error e ↔ ∃ before key wanted after,
      entries = before ++ (key, wanted) :: after ∧
      (∀ b ∈ before, ∃ v, judge b.1 b.2 (actual.get? b.1) = .ok v) ∧
      judge key wanted (actual.get? key) = .error e := by
  induction entries with
  | nil => simp [judgeAll]
  | cons f rest ih =>
    obtain ⟨key, wanted⟩ := f
    rw [judgeAll_cons_eq_error, ih]
    constructor
    · rintro (failed | ⟨fine, before, key', wanted', after, rfl, passed, failed⟩)
      · exact ⟨[], key, wanted, rest, rfl, by simp, failed⟩
      · exact ⟨(key, wanted) :: before, key', wanted', after, rfl,
          List.forall_mem_cons.2 ⟨fine, passed⟩, failed⟩
    · rintro ⟨before, key', wanted', after, split, passed, failed⟩
      cases before with
      | nil =>
        cases split
        exact .inl failed
      | cons b before =>
        obtain ⟨rfl, rfl⟩ := List.cons.inj split
        obtain ⟨fine, others⟩ := List.forall_mem_cons.1 passed
        exact .inr ⟨fine, before, key', wanted', after, rfl, others, failed⟩

/-- A key whose actual host is named fails only by its placement. -/
theorem judgeAll_error {actual : HostMap} {entries : List (String × HostRecord)}
    {e : ReconcileError} (named : ∀ key r, actual.get? key = some r → r.name.isSome)
    (h : judgeAll actual entries = .error e) :
    ∃ key name field desired found, e = .placementChanged key name field desired found := by
  obtain ⟨before, key, wanted, after, -, -, failed⟩ := judgeAll_eq_error.1 h
  obtain ⟨-, n, field, desired, found, -, -, -, rfl⟩ := (judge_eq_error (named key)).1 failed
  exact ⟨key, n, field, desired, found, rfl⟩

/-- Named hosts that stand where they are desired can be compared. -/
theorem judgeAll_of_placed (actual : HostMap) (entries : List (String × HostRecord))
    (h : ∀ e ∈ entries, InPlace actual e) : ∃ d, judgeAll actual entries = .ok d := by
  induction entries with
  | nil => exact ⟨_, rfl⟩
  | cons e rest ih =>
    obtain ⟨key, wanted⟩ := e
    obtain ⟨placed, others⟩ := List.forall_mem_cons.1 h
    obtain ⟨d, tail⟩ := ih others
    have verdict : ∃ v, judge key wanted (actual.get? key) = .ok v :=
      (judge_passes_iff fun r found => (placed r found).1).2 fun r found => (placed r found).2
    obtain ⟨v, judged⟩ := verdict
    exact ⟨_, judgeAll_cons_eq_ok.2 ⟨v, d, judged, tail, rfl⟩⟩

theorem surplusNames_eq_nil {desired : HostMap} {entries : List (String × HostRecord)}
    (h : ∀ e ∈ entries, e.1 ∈ desired.keys) : surplusNames desired entries = .ok [] := by
  induction entries with
  | nil => rfl
  | cons e rest ih =>
    have declared := KeyMap.contains_iff.2 (h e (.head _))
    rw [surplusNames, if_pos declared]
    exact ih fun f hf => h f (.tail _ hf)

namespace Correlation.Accounts

variable {c : Correlation} {wanted : HostMap} {listed : List HostRecord}

theorem named (h : c.Accounts wanted listed) {key : String} {r : HostRecord}
    (found : c.matched.get? key = some r) : r.name.isSome := by
  have he := h.mem_matched.1 (KeyMap.get?_eq_some.1 found)
  exact h.wellNamed.named r (Multiset.mem_add.2 (.inl (List.mem_map_of_mem (f := Prod.snd) he)))

/-- The difference against a correlation deletes the orphans and nothing else. -/
theorem diffCorrelation_eq (h : c.Accounts wanted listed) :
    diffCorrelation wanted c =
      (judgeAll c.matched wanted.entries).map fun d => { d with toDelete := c.orphanNames } := by
  have declared : ∀ e ∈ c.matched.entries, e.1 ∈ wanted.keys := fun e he =>
    h.matched_subset (KeyMap.mem_keys_of_mem he)
  rw [diffCorrelation, computeDiff, surplusNames_eq_nil declared]
  cases judgeAll c.matched wanted.entries <;> rfl

theorem diffCorrelation_ok (h : c.Accounts wanted listed) {d : HostDiff}
    (done : diffCorrelation wanted c = .ok d) :
    Judged c.matched wanted.entries d ∧ d.toDelete = c.orphanNames := by
  rw [h.diffCorrelation_eq] at done
  cases judged : judgeAll c.matched wanted.entries with
  | error e => simp [judged, Except.map] at done
  | ok before =>
    simp only [judged, Except.map, Except.ok.injEq] at done
    subst done
    have parts := (judgeAll_ok wanted.ascending judged).1
    exact ⟨⟨parts.creates, parts.updates, parts.unchanged, parts.placed⟩, rfl⟩

theorem diffCorrelation_error (h : c.Accounts wanted listed) {e : ReconcileError}
    (failed : diffCorrelation wanted c = .error e) :
    ∃ key name field desired found, e = .placementChanged key name field desired found := by
  rw [h.diffCorrelation_eq] at failed
  cases judged : judgeAll c.matched wanted.entries with
  | error e' =>
    simp only [judged, Except.map, Except.error.injEq] at failed
    subst failed
    exact judgeAll_error (fun _ _ => h.named) judged
  | ok d => simp [judged, Except.map] at failed

end Correlation.Accounts

namespace Judged

variable {actual : HostMap} {entries : List (String × HostRecord)} {d : HostDiff}

/-- Every desired key is in one part of the difference. -/
theorem size_eq (h : Judged actual entries d) :
    d.toCreate.size + d.toUpdate.length + d.unchanged.length = entries.length := by
  rw [KeyMap.size, h.creates, h.updates, h.unchanged, List.length_map, List.length_map]
  clear h
  induction entries with
  | nil => rfl
  | cons e rest ih =>
    cases found : actual.get? e.1 with
    | none =>
      simp only [List.filter_cons, List.filterMap_cons, found, Option.isNone_none, if_true,
        Option.bind_none, Option.any_none, Bool.false_eq_true, if_false, List.length_cons]
      omega
    | some r =>
      cases change : updateFor e.1 e.2 r <;>
        simp only [List.filter_cons, List.filterMap_cons, found, change, Option.isNone_some,
          Option.isNone_none, Option.bind_some, Option.any_some, Bool.false_eq_true, if_false,
          if_true, List.length_cons] <;> omega

theorem mem_updates (h : Judged actual entries d) {u : HostUpdate} :
    u ∈ d.toUpdate ↔ ∃ wanted r, (u.key, wanted) ∈ entries ∧ (u.key, r) ∈ actual.entries ∧
      updateFor u.key wanted r = some u := by
  rw [h.updates, List.mem_filterMap]
  constructor
  · rintro ⟨⟨key, wanted⟩, he, some⟩
    obtain ⟨r, found, change⟩ := Option.bind_eq_some_iff.1 some
    obtain ⟨rfl, -⟩ := updateFor_eq_some change
    exact ⟨wanted, r, he, KeyMap.get?_eq_some.1 found, change⟩
  · rintro ⟨wanted, r, he, found, change⟩
    exact ⟨_, he, Option.bind_eq_some_iff.2 ⟨r, KeyMap.get?_eq_some.2 found, change⟩⟩

end Judged

namespace HostPlan

variable (d : HostDiff) (current : Nat) (guardrails : Option Guardrails) (hash : String)

@[simp] theorem creates_ofDiff : (ofDiff d current guardrails hash).creates = d.toCreate.entries := by
  simp [creates, ofDiff, HostDiff.actions, List.filterMap_append, List.filterMap_map,
    Function.comp_def, Action.creates?]

@[simp] theorem updates_ofDiff : (ofDiff d current guardrails hash).updates = d.toUpdate := by
  simp [updates, ofDiff, HostDiff.actions, List.filterMap_append, List.filterMap_map,
    Function.comp_def, Action.updates?]

@[simp] theorem deletes_ofDiff : (ofDiff d current guardrails hash).deletes = d.toDelete := by
  simp [deletes, ofDiff, HostDiff.actions, List.filterMap_append, List.filterMap_map,
    Function.comp_def, Action.deletes?]

theorem isEmpty_ofDiff : (ofDiff d current guardrails hash).isEmpty = true ↔
    d.toCreate = ∅ ∧ d.toUpdate = [] ∧ d.toDelete = [] := by
  simp [isEmpty, ofDiff, HostDiff.actions, KeyMap.ext_iff]

end HostPlan

end HostRoster
