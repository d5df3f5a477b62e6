import HostRoster.Proofs.ListingOrder
import HostRoster.Proofs.Retention

/-!
# Hosts that have moved

The placement of a host cannot be changed in place. So a host whose name is recorded for a key has
to stand where the key is declared to be, and a run refuses to plan for one that does not. A host
that is adopted is of its key's class and stands where it should, and a subnet that is not declared
is left to the cluster.
-/
namespace HostRoster

namespace HostSpec

variable {s : HostSpec} {host : HostRecord} {field : HostField} {wanted found : String}

/-- The host stands in another zone than declared, or not in the subnet that is declared. -/
def Misplaces (s : HostSpec) (host : HostRecord) : Prop :=
  host.zone ≠ s.zone ∨ ∃ subnet, s.subnetId = some subnet ∧ host.subnetId ≠ some subnet

/-- What is reported of a host that is not where it is declared to be: its zone if that is another,
else its subnet. -/
inductive Reports (s : HostSpec) (host : HostRecord) : HostField → String → String → Prop
  | zone (moved : host.zone ≠ s.zone) : Reports s host .zone s.zone host.zone
  | subnet {subnet : String} (stays : host.zone = s.zone) (declared : s.subnetId = some subnet)
      (moved : host.subnetId ≠ some subnet) :
      Reports s host .subnetId subnet (host.subnetId.getD "<none>")

theorem placementChange_eq_some : placementChange s host.toHostSpec = some (field, wanted, found) ↔
    s.Reports host field wanted found := by
  unfold placementChange
  constructor
  · intro change
    split at change
    next moved =>
      cases change
      exact .zone (Ne.symm moved)
    next stays =>
      split at change
      · simp at change
      next subnet declared =>
        split at change
        · simp at change
        next moved =>
          cases change
          exact .subnet (not_not.1 stays).symm declared moved
  · intro reports
    cases reports with
    | zone moved => rw [if_pos (Ne.symm moved)]
    | subnet stays declared moved =>
      rw [if_neg (not_not.2 stays.symm), declared]
      exact if_neg moved

theorem not_misplaces : ¬ s.Misplaces host ↔ placementChange s host.toHostSpec = none := by
  rw [placementChange_eq_none]
  unfold Misplaces
  cases subnet : s.subnetId with
  | none => simp [eq_comm]
  | some declared => simp [eq_comm]

/-- A host is misplaced if and only if there is something to report of it. -/
theorem misplaces_iff :
    s.Misplaces host ↔ ∃ field wanted found, s.Reports host field wanted found := by
  rw [← not_iff_not, not_misplaces, Option.eq_none_iff_forall_not_mem]
  simp [← placementChange_eq_some]

/-- A host of the declared class is where it should be. -/
theorem not_misplaces_of_suits (suits : host.Suits s) : ¬ s.Misplaces host := by
  obtain ⟨zone, -, subnet⟩ := fits_iff.1 suits
  exact not_misplaces.2 (placementChange_eq_none.2 ⟨zone.symm, subnet⟩)

end HostSpec

namespace Reconciler

variable {desired : Declaration} {prior : HostMap} {listed : List HostRecord} {key : String}
  {host : HostRecord}

/-- A matched host bears the name recorded for its key, or it is adopted and of the key's class. -/
theorem matched_cases
    (matched : (key, host) ∈ (correlate desired prior listed).matched.entries) :
    (∃ n, recordedName prior key = some n ∧ host.name = some n ∧ host ∈ listed) ∨
      key ∈ (correlate desired prior listed).adopted ∧ recordedName prior key = none ∧
        ∃ s, (key, s) ∈ desired.entries ∧ host.Suits s := by
  have pair := (correlate_accounts desired prior listed).mem_matched.1 matched
  unfold correlate at pair
  rw [Correlation.pairs_adoptOrphans] at pair
  rcases List.mem_append.1 pair with named | served
  · exact .inl (name_of_mem_correlateNamed named)
  · obtain ⟨m, hm, entry⟩ := List.mem_map.1 served
    obtain ⟨rfl, rfl⟩ := Prod.mk.inj entry
    have adopted : m.slot.2 ∈ (correlate desired prior listed).adopted :=
      mem_adopted.2 (List.mem_map_of_mem hm)
    obtain ⟨fits, -, -, -, wanted, declared, -, slot⟩ := Correlation.mem_adoption hm
    obtain ⟨s, hs, rfl⟩ := mem_mergePriorNames.1 declared
    refine .inr ⟨adopted, unnamed_of_served hm, s, hs, ?_⟩
    have cls : m.slot.1 = s.hostClass := slot
    unfold HostRecord.Suits
    rw [← cls]
    exact fits

/-- An adopted host is never misplaced. -/
theorem not_misplaces_of_adopted {s : HostSpec} (declared : (key, s) ∈ desired.entries)
    (matched : (key, host) ∈ (correlate desired prior listed).matched.entries)
    (adopted : key ∈ (correlate desired prior listed).adopted) : ¬ s.Misplaces host := by
  rcases matched_cases matched with ⟨n, recorded, -, -⟩ | ⟨-, -, s', declared', suits⟩
  · have unnamed := (unnamed_of_adopted adopted).2
    simp [recorded] at unnamed
  · obtain rfl := KeyMap.eq_of_mem declared declared'
    exact HostSpec.not_misplaces_of_suits suits

/-- With all names distinct, a key has the listed host of its recorded name. -/
theorem matched_of_recorded {n : String} (distinct : DistinctNames prior)
    (once : (listed.filterMap HostRecord.name).Nodup) (declared : key ∈ desired.keys)
    (recorded : recordedName prior key = some n) (present : host ∈ listed)
    (name : host.name = some n) :
    (key, host) ∈ (correlate desired prior listed).matched.entries := by
  have known := recordedName_correlate distinct declared recorded ⟨host, present, name⟩
  obtain ⟨found, matched, foundName⟩ := recordedName_eq_some.1 known
  rcases matched_cases matched with ⟨m, -, -, foundListed⟩ | ⟨-, unnamed, -⟩
  · have same := (mem_byName_iff once).2 ⟨present, name⟩
    have same' := (mem_byName_iff once).2 ⟨foundListed, foundName⟩
    obtain rfl := KeyMap.eq_of_mem same same'
    exact matched
  · simp [unnamed] at recorded

/-- The name recorded for a declared key is listed, but not where the key is declared to be. -/
def Moved (desired : Declaration) (prior : HostMap) (listed : List HostRecord) (key : String) :
    Prop :=
  ∃ s n host, (key, s) ∈ desired.entries ∧ recordedName prior key = some n ∧ host ∈ listed ∧
    host.name = some n ∧ s.Misplaces host

theorem moved_iff (distinct : DistinctNames prior)
    (once : (listed.filterMap HostRecord.name).Nodup) :
    Moved desired prior listed key ↔ ∃ s host, (key, s) ∈ desired.entries ∧
      (key, host) ∈ (correlate desired prior listed).matched.entries ∧ s.Misplaces host := by
  constructor
  · rintro ⟨s, n, host, declared, recorded, present, name, misplaced⟩
    exact ⟨s, host, declared, matched_of_recorded distinct once (KeyMap.mem_keys_of_mem declared)
      recorded present name, misplaced⟩
  · rintro ⟨s, host, declared, matched, misplaced⟩
    rcases matched_cases matched with ⟨n, recorded, name, present⟩ | ⟨adopted, -⟩
    · exact ⟨s, n, host, declared, recorded, present, name, misplaced⟩
    · exact absurd misplaced (not_misplaces_of_adopted declared matched adopted)

/-- A key passes if its host, should it have one, is not misplaced. -/
theorem judge_passes_iff_placed {s : HostSpec} :
    (∃ v, judge key (s.named (recordedName prior key))
      ((correlate desired prior listed).matched.get? key) = .ok v) ↔
      ∀ host, (key, host) ∈ (correlate desired prior listed).matched.entries →
        ¬ s.Misplaces host := by
  have accounts := correlate_accounts desired prior listed
  rw [judge_passes_iff fun _ => accounts.named, HostSpec.toHostSpec_named]
  exact forall_congr' fun host => imp_congr KeyMap.get?_eq_some HostSpec.not_misplaces.symm

/-- A key fails if there is something to report of its host. -/
theorem judge_fails_iff_reports {s : HostSpec} {e : ReconcileError} :
    judge key (s.named (recordedName prior key))
      ((correlate desired prior listed).matched.get? key) = .error e ↔
      ∃ host n field wanted found, (key, host) ∈ (correlate desired prior listed).matched.entries ∧
        host.name = some n ∧ s.Reports host field wanted found ∧
        e = .placementChanged key n field wanted found := by
  have accounts := correlate_accounts desired prior listed
  simp only [judge_eq_error fun _ => accounts.named, HostSpec.toHostSpec_named,
    KeyMap.get?_eq_some, HostSpec.placementChange_eq_some]

/-- A preparation fails if the comparison with the matched hosts does. -/
theorem prepare_eq_error_iff {r : Reconciler} {e : ReconcileError} :
    r.prepare desired prior listed = .error e ↔
      judgeAll (correlate desired prior listed).matched (mergePriorNames desired prior).entries =
        .error e := by
  rw [prepare_eq, (correlate_accounts desired prior listed).diffCorrelation_eq]
  cases judgeAll (correlate desired prior listed).matched
    (mergePriorNames desired prior).entries <;> simp [Except.map]

/-- A preparation fails for the first declared key whose host is misplaced, and for nothing else. -/
theorem prepare_eq_error {r : Reconciler} {e : ReconcileError} :
    r.prepare desired prior listed = .error e ↔ ∃ before key s after host n field wanted found,
      desired.entries = before ++ (key, s) :: after ∧
      (∀ b ∈ before, ∀ host, (b.1, host) ∈ (correlate desired prior listed).matched.entries →
        ¬ b.2.Misplaces host) ∧
      (key, host) ∈ (correlate desired prior listed).matched.entries ∧ host.name = some n ∧
      s.Reports host field wanted found ∧ e = .placementChanged key n field wanted found := by
  rw [prepare_eq_error_iff, judgeAll_eq_error, mergePriorNames_eq, KeyMap.entries_map]
  constructor
  · rintro ⟨before, key, w, after, split, passed, failed⟩
    obtain ⟨earlier, rest, declared, rfl, later⟩ := List.map_eq_append_iff.1 split
    obtain ⟨⟨key, s⟩, after, rfl, entry, rfl⟩ := List.map_eq_cons_iff.1 later
    obtain ⟨rfl, rfl⟩ := Prod.mk.inj entry
    obtain ⟨host, n, field, wanted, found, report⟩ := judge_fails_iff_reports.1 failed
    refine ⟨earlier, key, s, after, host, n, field, wanted, found, declared, fun b hb => ?_, report⟩
    have fine := passed _ (List.mem_map_of_mem hb)
    exact judge_passes_iff_placed.1 fine
  · rintro ⟨before, key, s, after, host, n, field, wanted, found, declared, passed, report⟩
    rw [declared, List.map_append, List.map_cons]
    refine ⟨_, _, _, _, rfl, List.forall_mem_map.2 fun b hb => ?_, ?_⟩
    · exact judge_passes_iff_placed.2 (passed b hb)
    · exact judge_fails_iff_reports.2 ⟨host, n, field, wanted, found, report⟩

theorem prepare_fails_iff {r : Reconciler} (distinct : DistinctNames prior)
    (once : (listed.filterMap HostRecord.name).Nodup) :
    (∃ e, r.prepare desired prior listed = .error e) ↔ ∃ key, Moved desired prior listed key := by
  constructor
  · rintro ⟨e, failed⟩
    obtain ⟨before, key, s, after, host, n, field, wanted, found, declared, -, matched, -, reports,
      -⟩ := prepare_eq_error.1 failed
    refine ⟨key, (moved_iff distinct once).2 ⟨s, host, ?_, matched, ?_⟩⟩
    · simp [declared]
    · exact HostSpec.misplaces_iff.2 ⟨field, wanted, found, reports⟩
  · rintro ⟨key, moved⟩
    by_contra succeeds
    obtain ⟨s, host, declared, matched, misplaced⟩ := (moved_iff distinct once).1 moved
    cases prepared : r.prepare desired prior listed with
    | error e => exact succeeds ⟨e, prepared⟩
    | ok p =>
      have placed := (prepare_ok prepared).placed declared matched
      exact HostSpec.not_misplaces.2 (placementChange_eq_none.2 placed) misplaced

/-- The key of the error comes before every other key whose host has moved. -/
theorem prepare_error_least {r : Reconciler} {e : ReconcileError} (distinct : DistinctNames prior)
    (once : (listed.filterMap HostRecord.name).Nodup)
    (failed : r.prepare desired prior listed = .error e) :
    ∃ key s n host field wanted found, e = .placementChanged key n field wanted found ∧
      (key, s) ∈ desired.entries ∧ recordedName prior key = some n ∧ host ∈ listed ∧
      host.name = some n ∧ s.Reports host field wanted found ∧
      ∀ other, Moved desired prior listed other → (compare key other).isLE := by
  obtain ⟨before, key, s, after, host, n, field, wanted, found, declared, passed, matched, name,
    reports, rfl⟩ := prepare_eq_error.1 failed
  have here : (key, s) ∈ desired.entries := by simp [declared]
  have misplaced : s.Misplaces host := HostSpec.misplaces_iff.2 ⟨field, wanted, found, reports⟩
  refine ⟨key, s, n, host, field, wanted, found, rfl, here, ?_⟩
  rcases matched_cases matched with ⟨m, recorded, sameName, present⟩ | ⟨adopted, -⟩
  · obtain rfl := Option.some.inj (name.symm.trans sameName)
    refine ⟨recorded, present, name, reports, fun other moved => ?_⟩
    obtain ⟨s', host', declared', matched', misplaced'⟩ := (moved_iff distinct once).1 moved
    have order := desired.ascending
    rw [declared, List.pairwise_append, List.pairwise_cons] at order
    obtain ⟨-, ⟨later, -⟩, -⟩ := order
    rw [declared, List.mem_append, List.mem_cons] at declared'
    rcases declared' with earlier | same | after
    · exact absurd misplaced' (passed _ earlier host' matched')
    · obtain ⟨rfl, -⟩ := Prod.mk.inj same
      simp
    · have below : compare key other = .lt := later _ after
      simp [below]
  · exact absurd misplaced (not_misplaces_of_adopted here matched adopted)

/-- A run that cannot prepare for the first listing is over. -/
theorem reconcile_of_prepare_error {r : Reconciler} {e : ReconcileError} {cluster : String}
    {rest : List (Exchange Remote)} {now : Program Remote (Except SyncError Outcome)}
    (failed : r.prepare desired prior listed = .error e)
    (run : (r.reconcile cluster desired prior).run.Follows
      (⟨.list cluster, Except.ok listed⟩ :: rest) now) :
    rest = [] ∧ now = .done (.error (.reconcile e)) := by
  rw [reconcile_eq, follows_listing, respond] at run
  split at run
  next bare =>
    obtain ⟨noPrior, noHost⟩ := Bool.and_eq_true_iff.1 bare
    obtain rfl := KeyMap.isEmpty_iff.1 noPrior
    obtain rfl := List.isEmpty_iff.1 noHost
    obtain ⟨p, prepared, -⟩ := r.prepare_bare desired
    simp [prepared] at failed
  next =>
    rw [failed] at run
    exact Program.follows_done run

/-- How a reconciler treats hosts that have moved. -/
structure RefusesMoves (r : Reconciler) (desired : Declaration) (prior : HostMap)
    (listed : List HostRecord) : Prop where
  /-- It does not prepare for a listing if and only if a host has moved. -/
  fails_iff : (∃ e, r.prepare desired prior listed = .error e) ↔
    ∃ key, Moved desired prior listed key
  /-- The error is about the least key whose host has moved. -/
  least : ∀ e, r.prepare desired prior listed = .error e →
    ∃ key s n host field wanted found, e = .placementChanged key n field wanted found ∧
      (key, s) ∈ desired.entries ∧ recordedName prior key = some n ∧ host ∈ listed ∧
      host.name = some n ∧ s.Reports host field wanted found ∧
      ∀ other, Moved desired prior listed other → (compare key other).isLE
  /-- An adopted host stands where its key is declared to be. -/
  adopted : ∀ key s host, (key, s) ∈ desired.entries →
    (key, host) ∈ (correlate desired prior listed).matched.entries →
    key ∈ (correlate desired prior listed).adopted → ¬ s.Misplaces host
  /-- A run that gets such a listing first is over with this error. -/
  ends : ∀ e, r.prepare desired prior listed = .error e → ∀ cluster rest now,
    (r.reconcile cluster desired prior).run.Follows
      (⟨.list cluster, Except.ok listed⟩ :: rest) now →
    rest = [] ∧ now = .done (.error (.reconcile e))
  /-- A run that ends with such an error, whatever it was replied, has listed the cluster and made
  no other call. -/
  listing : ∀ cluster exchanges key n field wanted found,
    (r.reconcile cluster desired prior).run.Follows exchanges
      (.done (.error (.reconcile (.placementChanged key n field wanted found)))) →
    ∃ seen : List HostRecord, exchanges = [⟨.list cluster, Except.ok seen⟩]

/-- With all names distinct, a preparation fails exactly for hosts that have moved, before anything
is changed. -/
theorem prepare_refuses_moves (r : Reconciler) (desired : Declaration)
    (distinct : DistinctNames prior) (once : (listed.filterMap HostRecord.name).Nodup) :
    r.RefusesMoves desired prior listed := by
  constructor
  · exact prepare_fails_iff distinct once
  · exact fun e failed => prepare_error_least distinct once failed
  · exact fun key s host => not_misplaces_of_adopted
  · exact fun e failed cluster rest now run => reconcile_of_prepare_error failed run
  · intro cluster exchanges key n field wanted found run
    have veto : (SyncError.reconcile (.placementChanged key n field wanted found)).IsVeto := trivial
    exact Undertaking.listing_of_veto (u := .reconcile desired prior) run veto

end Reconciler

/-- A key with a subnet, and a key without. -/
def subnetted : Declaration :=
  .ofList [("a", { zone := "z", subnetId := some "s1" }), ("b", { zone := "y" })]

/-- The host of the one key is in another subnet, that of the other key in another zone. -/
def movedListing : List HostRecord :=
  [{ zone := "x", assignedName := some "h2" },
    { zone := "z", subnetId := some "s2", assignedName := some "h1" }]

/-- The first key is reported, though the other host comes first in the listing. -/
theorem prepare_refuses_moves_subnet :
    DistinctNames recordedTwo ∧ (movedListing.filterMap HostRecord.name).Nodup ∧
      ({} : Reconciler).prepare subnetted recordedTwo movedListing =
        .error (.placementChanged "a" "h1" .subnetId "s1" "s2") ∧
      (∀ other, Reconciler.Moved subnetted recordedTwo movedListing other →
        (compare "a" other).isLE) ∧
      ∀ rest now, (({} : Reconciler).reconcile "c" subnetted recordedTwo).run.Follows
        (⟨.list "c", Except.ok movedListing⟩ :: rest) now → rest = [] := by
  have distinct : DistinctNames recordedTwo := by decide +kernel
  have once : (movedListing.filterMap HostRecord.name).Nodup := by decide +kernel
  have failed : ({} : Reconciler).prepare subnetted recordedTwo movedListing =
      .error (.placementChanged "a" "h1" .subnetId "s1" "s2") := rfl
  have refuses := Reconciler.prepare_refuses_moves {} subnetted distinct once
  have ends := refuses.ends _ failed "c"
  refine ⟨distinct, once, failed, ?_, fun rest now run => (ends rest now run).1⟩
  obtain ⟨key, s, n, host, field, wanted, found, same, -, -, -, -, -, least⟩ :=
    refuses.least _ failed
  cases same
  exact least

end HostRoster
