import HostRoster.Proofs.Vetoes

/-!
# The order of a listing

A cluster may list its hosts in any order. What a run learns from a listing is which host bears
which name and how many entries there are. Unless a name is repeated neither depends on the order,
so a run that sees the same hosts in another order plans the same and does the same.
-/
namespace HostRoster

/-- Two listings from which a run learns the same. -/
structure Alike (listed other : List HostRecord) : Prop where
  named : byName listed = byName other
  length : listed.length = other.length

section Listings

variable {listed other : List HostRecord}

/-- With no name repeated, the index of a listing holds each of its named hosts. -/
theorem perm_byName (distinct : (listed.filterMap HostRecord.name).Nodup) :
    (byName listed).entries.Perm (listed.filterMap fun r => r.name.map (·, r)) := by
  apply KeyMap.perm_ofList
  have keys : (listed.filterMap fun r => r.name.map (·, r)).map (·.1) =
      listed.filterMap HostRecord.name := by
    rw [List.map_filterMap]
    congr 1
    funext r
    cases r.name <;> rfl
  rw [keys]
  exact distinct

theorem mem_byName_iff (distinct : (listed.filterMap HostRecord.name).Nodup) {n : String}
    {host : HostRecord} :
    (n, host) ∈ (byName listed).entries ↔ host ∈ listed ∧ host.name = some n := by
  rw [(perm_byName distinct).mem_iff, List.mem_filterMap]
  simp only [Option.map_eq_some_iff, Prod.mk.injEq]
  constructor
  · rintro ⟨host, present, n, name, rfl, rfl⟩
    exact ⟨present, name⟩
  · rintro ⟨present, name⟩
    exact ⟨host, present, n, name, rfl, rfl⟩

/-- The index is in name order, whatever the order of the listing. -/
theorem byName_perm (same : listed.Perm other)
    (distinct : (listed.filterMap HostRecord.name).Nodup) : byName listed = byName other := by
  have distinct' : (other.filterMap HostRecord.name).Nodup :=
    (same.filterMap HostRecord.name).nodup_iff.1 distinct
  have hosts := same.filterMap fun r => r.name.map (·, r)
  exact KeyMap.ext_perm ((perm_byName distinct).trans (hosts.trans (perm_byName distinct').symm))

theorem Alike.of_perm (same : listed.Perm other)
    (distinct : (listed.filterMap HostRecord.name).Nodup) : Alike listed other :=
  ⟨byName_perm same distinct, same.length_eq⟩

namespace Alike

variable (alike : Alike listed other) {desired : Declaration} {prior : HostMap}
include alike

theorem isEmpty : listed.isEmpty = other.isEmpty := by
  rw [Bool.eq_iff_iff, List.isEmpty_iff_length_eq_zero, List.isEmpty_iff_length_eq_zero,
    alike.length]

/-- Keys take their hosts out of the index, and what is left of it are the orphans. -/
theorem correlateByName (wanted : HostMap) :
    correlateByName wanted listed = correlateByName wanted other := by
  unfold HostRoster.correlateByName
  rw [alike.named]

/-- Orphans are offered in name order, so adoption takes the same keys for the same hosts. -/
theorem correlate : Reconciler.correlate desired prior listed =
    Reconciler.correlate desired prior other := by
  unfold Reconciler.correlate
  rw [alike.correlateByName]

theorem prepare (r : Reconciler) :
    r.prepare desired prior listed = r.prepare desired prior other := by
  rw [Reconciler.prepare_eq, Reconciler.prepare_eq, alike.correlate, alike.length]

theorem prepareSession (r : Reconciler) :
    r.prepareSession desired prior listed = r.prepareSession desired prior other := by
  unfold Reconciler.prepareSession
  rw [alike.prepare]

theorem respond (r : Reconciler) (cluster : String) :
    r.respond cluster desired prior listed = r.respond cluster desired prior other := by
  unfold Reconciler.respond
  rw [alike.isEmpty, alike.prepare]

/-- Nothing but a destruction, which deletes as it is listed, can tell the listings apart. -/
theorem follows {u : Undertaking} (keeps : ∀ prior, u ≠ .destroy prior) {r : Reconciler}
    {cluster : String} {rest : List (Exchange Remote)}
    {now : Program Remote (Except SyncError u.Report)} :
    (u.session r cluster).run.Follows (⟨.list cluster, Except.ok listed⟩ :: rest) now ↔
      (u.session r cluster).run.Follows (⟨.list cluster, Except.ok other⟩ :: rest) now := by
  cases u with
  | reconcile desired prior =>
    change (r.reconcile cluster desired prior).run.Follows _ now ↔
      (r.reconcile cluster desired prior).run.Follows _ now
    rw [Reconciler.reconcile_eq]
    exact follows_listing_congr (alike.respond r cluster)
  | create desired =>
    apply follows_listing_congr
    rw [alike.isEmpty, alike.length]
  | plan desired prior =>
    apply follows_listing_congr
    rw [alike.prepareSession]
  | checkDrift desired prior =>
    apply follows_listing_congr
    rw [alike.prepareSession, alike.length]
  | destroy prior => exact absurd rfl (keeps prior)

end Alike

/-- If no name is repeated, the order of a listing has no part in what is prepared for it, nor in
any run that reads it but a destruction. -/
theorem listing_order_irrelevant (same : listed.Perm other)
    (distinct : (listed.filterMap HostRecord.name).Nodup) (r : Reconciler) (cluster : String) :
    (∀ desired prior, r.prepare desired prior listed = r.prepare desired prior other) ∧
      ∀ u : Undertaking, (∀ prior, u ≠ .destroy prior) → ∀ rest now,
        (u.session r cluster).run.Follows (⟨.list cluster, Except.ok listed⟩ :: rest) now ↔
          (u.session r cluster).run.Follows (⟨.list cluster, Except.ok other⟩ :: rest) now := by
  have alike := Alike.of_perm same distinct
  constructor
  · intro desired prior
    exact alike.prepare r
  · intro u keeps rest now
    exact alike.follows keeps

end Listings

/-- A host that has not been named yet. -/
def unnamedHost : HostRecord := { zone := "y" }

/-- The host of a key, a stray one and one without a name, in two orders. -/
theorem listing_order_irrelevant_unnamed :
    [firstHost, unnamedHost, strayHost].Perm [strayHost, firstHost, unnamedHost] ∧
      ([firstHost, unnamedHost, strayHost].filterMap HostRecord.name).Nodup ∧
      ∃ p, ({} : Reconciler).prepare twoZones recordedTwo [firstHost, unnamedHost, strayHost] =
          .ok p ∧
        ({} : Reconciler).prepare twoZones recordedTwo [strayHost, firstHost, unnamedHost] =
          .ok p ∧
        p.diff.toCreate.keys = ["b"] ∧ p.plan.deletes = ["h3"] ∧ p.plan.currentHosts = 3 := by
  have same : [firstHost, unnamedHost, strayHost].Perm [strayHost, firstHost, unnamedHost] := by
    decide +kernel
  have distinct : ([firstHost, unnamedHost, strayHost].filterMap HostRecord.name).Nodup := by
    decide +kernel
  have evaluated : ∃ p, ({} : Reconciler).prepare twoZones recordedTwo
      [firstHost, unnamedHost, strayHost] = .ok p ∧ p.diff.toCreate.keys = ["b"] ∧
      p.plan.deletes = ["h3"] ∧ p.plan.currentHosts = 3 :=
    ⟨_, rfl, by decide +kernel, by decide +kernel, by decide +kernel⟩
  obtain ⟨p, prepared, parts⟩ := evaluated
  obtain ⟨alike, -⟩ := listing_order_irrelevant same distinct {} "c"
  exact ⟨same, distinct, p, prepared, alike twoZones recordedTwo ▸ prepared, parts⟩

/-- Of two hosts with one name the later counts, so there the order matters. -/
example : byName [firstHost, movedHost] ≠ byName [movedHost, firstHost] := by decide +kernel

end HostRoster
