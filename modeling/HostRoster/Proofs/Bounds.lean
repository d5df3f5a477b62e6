import HostRoster.Config.Check
import HostRoster.Proofs.Accounting
import HostRoster.Proofs.Retention

/-!
# Bounds on the number of hosts

A plan is held against its bounds by a count: the listed hosts and those to create, less
those to delete. Every key without a host is created and every listed name without a key is
deleted, so the count is the number of declared keys, and every entry of the listing that
has no name of its own comes on top. On a listing of distinctly named hosts the bounds
therefore say of a plan what the check of a configuration says of its declaration.
-/
namespace HostRoster

/-- The violation of a bound on the number of hosts. -/
def outOfBounds (limit : String) (resulting bound : Nat) : String :=
  "Plan results in " ++ toString resulting ++ " host(s) but " ++ limit ++ " is " ++ toString bound

/-- The violation of the protection from deletes. -/
def protectedHosts (deleted : Nat) : String :=
  "Deletion protection is enabled but the plan deletes " ++ toString deleted ++ " host(s)"

theorem toDigits_inj {n m : Nat} : Nat.toDigits 10 n = Nat.toDigits 10 m ↔ n = m := by
  constructor
  · intro h
    simpa using congrArg (Nat.ofDigitChars 10 · 0) h
  · exact congrArg _

/-- A number ends where the text goes on with a blank. -/
theorem digits_blank_inj {n m : Nat} {a b : List Char} :
    Nat.toDigits 10 n ++ ' ' :: a = Nat.toDigits 10 m ++ ' ' :: b ↔ n = m ∧ a = b := by
  have digits : ∀ (k : Nat) (rest : List Char),
      (Nat.toDigits 10 k ++ ' ' :: rest).takeWhile Char.isDigit = Nat.toDigits 10 k := by
    intro k rest
    rw [List.takeWhile_append_of_pos fun c => Nat.isDigit_of_mem_toDigits (by decide) (by decide),
      List.takeWhile_cons_of_neg (by decide), List.append_nil]
  constructor
  · intro h
    have same := congrArg (List.takeWhile Char.isDigit) h
    rw [digits, digits] at same
    rw [same] at h
    exact ⟨toDigits_inj.1 same, (List.cons.inj (List.append_cancel_left h)).2⟩
  · rintro ⟨rfl, rfl⟩
    rfl

theorem outOfBounds_inj {limit : String} {n m a b : Nat} :
    outOfBounds limit n a = outOfBounds limit m b ↔ n = m ∧ a = b := by
  unfold outOfBounds
  rw [← String.toList_inj]
  simp [digits_blank_inj, toDigits_inj]

theorem outOfBounds_max_ne_min {n m a b : Nat} :
    outOfBounds "max_hosts" n a ≠ outOfBounds "min_hosts" m b := by
  unfold outOfBounds
  rw [Ne, ← String.toList_inj]
  simp [digits_blank_inj]

theorem outOfBounds_ne_protected {limit : String} {n m a : Nat} :
    outOfBounds limit n a ≠ protectedHosts m := by
  unfold outOfBounds protectedHosts
  rw [Ne, ← String.toList_inj]
  simp

theorem Guardrails.violations_eq (g : Guardrails) (resulting deleted : Nat) :
    g.violations resulting deleted =
      (g.maxHosts.toList.filter (· < resulting)).map (outOfBounds "max_hosts" resulting) ++
      (g.minHosts.toList.filter (resulting < ·)).map (outOfBounds "min_hosts" resulting) ++
      if g.deletionProtection = true ∧ 0 < deleted then [protectedHosts deleted] else [] := by
  have max : ∀ bound, outOfBounds "max_hosts" resulting bound = "Plan results in " ++
      toString resulting ++ " host(s) but max_hosts is " ++ toString bound := fun bound => by
    unfold outOfBounds
    rw [← String.toList_inj]
    simp
  have min : ∀ bound, outOfBounds "min_hosts" resulting bound = "Plan results in " ++
      toString resulting ++ " host(s) but min_hosts is " ++ toString bound := fun bound => by
    unfold outOfBounds
    rw [← String.toList_inj]
    simp
  unfold violations
  congr 1
  · congr 1
    · cases g.maxHosts <;> simp [List.filter_cons, max, apply_ite]
    · cases g.minHosts <;> simp [List.filter_cons, min, apply_ite]
  · unfold protectedHosts
    simp

namespace Guardrails

variable {g : Guardrails} {resulting deleted n bound : Nat}

/-- An upper bound is reported as broken exactly when the hosts are too many for it. -/
theorem max_mem_violations : outOfBounds "max_hosts" n bound ∈ g.violations resulting deleted ↔
    n = resulting ∧ g.maxHosts = some bound ∧ bound < resulting := by
  rw [violations_eq, List.mem_append, List.mem_append]
  constructor
  · rintro ((h | h) | h)
    · obtain ⟨b, hb, same⟩ := List.mem_map.1 h
      obtain ⟨rfl, rfl⟩ := outOfBounds_inj.1 same
      simpa using hb
    · obtain ⟨b, -, same⟩ := List.mem_map.1 h
      exact absurd same.symm outOfBounds_max_ne_min
    · split at h
      · exact absurd (List.mem_singleton.1 h) outOfBounds_ne_protected
      · cases h
  · rintro ⟨rfl, some, more⟩
    exact .inl (.inl (List.mem_map_of_mem (by simp [some, more])))

theorem min_mem_violations : outOfBounds "min_hosts" n bound ∈ g.violations resulting deleted ↔
    n = resulting ∧ g.minHosts = some bound ∧ resulting < bound := by
  rw [violations_eq, List.mem_append, List.mem_append]
  constructor
  · rintro ((h | h) | h)
    · obtain ⟨b, -, same⟩ := List.mem_map.1 h
      exact absurd same outOfBounds_max_ne_min
    · obtain ⟨b, hb, same⟩ := List.mem_map.1 h
      obtain ⟨rfl, rfl⟩ := outOfBounds_inj.1 same
      simpa using hb
    · split at h
      · exact absurd (List.mem_singleton.1 h) outOfBounds_ne_protected
      · cases h
  · rintro ⟨rfl, some, less⟩
    exact .inl (.inr (List.mem_map_of_mem (by simp [some, less])))

/-- Within its bounds, nothing but the protection from deletes stands against a plan. -/
theorem violations_within (max : ∀ bound ∈ g.maxHosts, resulting ≤ bound)
    (min : ∀ bound ∈ g.minHosts, bound ≤ resulting) :
    g.violations resulting deleted =
      if g.deletionProtection = true ∧ 0 < deleted then [protectedHosts deleted] else [] := by
  have noMax : g.maxHosts.toList.filter (· < resulting) = [] := by
    simpa using max
  have noMin : g.minHosts.toList.filter (resulting < ·) = [] := by
    simpa using min
  rw [violations_eq, noMax, noMin]
  rfl

end Guardrails

/-- The declared hosts of an accepted configuration keep its own bounds. -/
theorem Config.bounds_of_validate {config : Config} {report : CheckReport}
    (accepted : config.validate = .ok report) :
    (∀ bound ∈ config.guardrailsOrNone.maxHosts, config.hosts.size ≤ bound) ∧
      ∀ bound ∈ config.guardrailsOrNone.minHosts, bound ≤ config.hosts.size := by
  have clean : config.check.errors = [] := by
    unfold validate at accepted
    split at accepted
    · assumption
    · cases accepted
  have checked : ∀ g, config.guardrails = some g → g.check config.hosts.size = [] := by
    intro g present
    simp only [check, present, Option.elim_some, List.append_eq_nil_iff] at clean
    exact clean.1.2
  unfold guardrailsOrNone
  cases present : config.guardrails with
  | none => simp
  | some g =>
    have passed := checked g present
    simp only [Guardrails.check, List.append_eq_nil_iff] at passed
    obtain ⟨⟨-, max⟩, min⟩ := passed
    constructor
    · intro bound hb
      have bounded : g.maxHosts = some bound := hb
      rw [bounded, Option.elim_some, unlessHolds] at max
      simpa using max
    · intro bound hb
      have bounded : g.minHosts = some bound := hb
      rw [bounded, Option.elim_some, unlessHolds] at min
      simpa using min

variable {r : Reconciler} {desired : Declaration} {prior : HostMap} {listed : List HostRecord}
  {p : Prepared}

/-- Every entry of a listing of distinctly named hosts has a name that counts. -/
theorem WellNamed.map_some_names (named : WellNamed (listed : Multiset HostRecord)) :
    (listed.filterMap HostRecord.name).map some = listed.map HostRecord.name := by
  rw [List.map_filterMap, ← List.filterMap_eq_map]
  refine List.filterMap_congr fun host hh => ?_
  obtain ⟨n, name⟩ := Option.isSome_iff_exists.1 (named.named host hh)
  simp [name]

theorem WellNamed.nodup_names (named : WellNamed (listed : Multiset HostRecord)) :
    (listed.filterMap HostRecord.name).Nodup := by
  have distinct := named.distinct
  rw [Multiset.map_coe, Multiset.coe_nodup, ← named.map_some_names] at distinct
  exact distinct.of_map

theorem WellNamed.length_names (named : WellNamed (listed : Multiset HostRecord)) :
    (listed.filterMap HostRecord.name).length = listed.length := by
  simpa using congrArg List.length named.map_some_names

/-- Each declared key is created unless it has a host, and each listed name is deleted unless it
is that of a key's host. -/
theorem Prepared.AccountsOnce.count (a : p.AccountsOnce desired listed)
    (matched : WellNamed (p.correlation.matched.values : Multiset HostRecord)) :
    p.diff.toCreate.size + (listed.filterMap HostRecord.name).dedup.length =
      desired.size + p.diff.toDelete.length := by
  have keys := a.hosts.length_eq
  have names := a.names.length_eq
  rw [List.length_append, matched.length_names, KeyMap.length_values] at names
  rw [List.length_append, KeyMap.length_keys, KeyMap.length_keys, KeyMap.length_keys] at keys
  omega

theorem Reconciler.Prepares.count (h : r.Prepares desired prior listed p) :
    p.plan.creates.length + (listed.filterMap HostRecord.name).dedup.length =
      desired.size + p.plan.deletes.length := by
  have accounts := Reconciler.correlate_accounts desired prior listed
  have counted := h.accountsOnce.count (h.correlation ▸ accounts.wellNamed_matched)
  rw [h.plan, HostPlan.creates_ofDiff, HostPlan.deletes_ofDiff]
  exact counted

/-- A plan for distinctly named hosts leaves as many hosts as are declared. -/
theorem Reconciler.Prepares.resultingHosts (h : r.Prepares desired prior listed p)
    (named : WellNamed (listed : Multiset HostRecord)) :
    p.plan.deletes.length ≤ p.plan.currentHosts + p.plan.creates.length ∧
      p.plan.resultingHosts = desired.size := by
  have counted := h.count
  have current : p.plan.currentHosts = listed.length := by rw [h.plan]; rfl
  rw [named.nodup_names.dedup, named.length_names] at counted
  rw [HostPlan.resultingHosts, hostsAfter, current]
  omega

theorem HostPlan.violations_ofDiff (d : HostDiff) (current : Nat) (guardrails : Option Guardrails)
    (hash : String) : (HostPlan.ofDiff d current guardrails hash).violations =
      guardrails.elim [] fun g => g.violations
        (HostPlan.ofDiff d current guardrails hash).resultingHosts
        (HostPlan.ofDiff d current guardrails hash).deletes.length := by
  rw [resultingHosts, creates_ofDiff, deletes_ofDiff]
  rfl

theorem Reconciler.Prepares.violations_eq (h : r.Prepares desired prior listed p)
    (named : WellNamed (listed : Multiset HostRecord)) :
    p.plan.violations =
      r.guardrails.elim [] fun g => g.violations desired.size p.plan.deletes.length := by
  have resulting := (h.resultingHosts named).2
  rw [h.plan] at resulting ⊢
  rw [HostPlan.violations_ofDiff, resulting]

/-- What a plan for distinctly named hosts is held against is the number of declared hosts, so
that the bounds of an accepted configuration never stand against its own plans. -/
theorem prepare_counts_declared (named : WellNamed (listed : Multiset HostRecord))
    (prepared : r.prepare desired prior listed = .ok p) :
    p.plan.deletes.length ≤ p.plan.currentHosts + p.plan.creates.length ∧
      p.plan.resultingHosts = desired.size ∧
      (∀ n bound, outOfBounds "max_hosts" n bound ∈ p.plan.violations ↔
        n = desired.size ∧ bound < desired.size ∧
          ∃ g, r.guardrails = some g ∧ g.maxHosts = some bound) ∧
      (∀ n bound, outOfBounds "min_hosts" n bound ∈ p.plan.violations ↔
        n = desired.size ∧ desired.size < bound ∧
          ∃ g, r.guardrails = some g ∧ g.minHosts = some bound) ∧
      ∀ (config : Config) (report : CheckReport), config.validate = .ok report →
        config.hosts = desired → r.guardrails = some config.guardrailsOrNone →
        p.plan.ensureGuardrails =
          if config.guardrailsOrNone.deletionProtection = true ∧ p.plan.deletes ≠ [] then
            .error (.guardrails [protectedHosts p.plan.deletes.length])
          else .ok () := by
  have prepares := Reconciler.prepare_ok prepared
  obtain ⟨covered, resulting⟩ := prepares.resultingHosts named
  have violations := prepares.violations_eq named
  refine ⟨covered, resulting, fun n bound => ?_, fun n bound => ?_, ?_⟩
  · rw [violations]
    cases r.guardrails with
    | none => simp
    | some g => simp [Guardrails.max_mem_violations, and_comm]
  · rw [violations]
    cases r.guardrails with
    | none => simp
    | some g => simp [Guardrails.min_mem_violations, and_comm]
  · intro config report accepted declared guarded
    obtain ⟨max, min⟩ := config.bounds_of_validate accepted
    rw [declared] at max min
    rw [guarded, Option.elim_some, Guardrails.violations_within max min] at violations
    rw [HostPlan.ensureGuardrails, HostPlan.passesGuardrails, violations]
    by_cases refused : config.guardrailsOrNone.deletionProtection = true ∧ p.plan.deletes ≠ []
    · have deleting : config.guardrailsOrNone.deletionProtection = true ∧
          0 < p.plan.deletes.length := ⟨refused.1, List.length_pos_iff.2 refused.2⟩
      rw [if_pos refused, if_pos deleting]
      rfl
    · have kept : ¬ (config.guardrailsOrNone.deletionProtection = true ∧
          0 < p.plan.deletes.length) := by
        rwa [List.length_pos_iff]
      rw [if_neg refused, if_neg kept]
      rfl

/-- A configuration that asks for two hosts, no more and no less, and for none to be deleted. -/
def guardedConfig : Config :=
  { cluster := { id := "c", environment := "test", name := "main" }
    api := { endpoint := "http://[::1]" }
    hosts := twoZones
    guardrails := some { maxHosts := some 2, minHosts := some 2, deletionProtection := true } }

/-- Of two hosts one is to be replaced. That keeps the bounds, but it is a delete. -/
theorem prepare_counts_declared_guarded :
    WellNamed ([firstHost, strayHost] : Multiset HostRecord) ∧
      guardedConfig.validate = .ok guardedConfig.check ∧
      ∃ p, ({ guardrails := some guardedConfig.guardrailsOrNone } : Reconciler).prepare twoZones
          recordedTwo [firstHost, strayHost] = .ok p ∧
        p.plan.deletes = ["h3"] ∧ p.plan.resultingHosts = 2 ∧
        p.plan.ensureGuardrails = .error (.guardrails [protectedHosts 1]) := by
  have named : WellNamed ([firstHost, strayHost] : Multiset HostRecord) :=
    ⟨by decide +kernel, by decide +kernel⟩
  have accepted : guardedConfig.validate = .ok guardedConfig.check := by decide +kernel
  have evaluated : ∃ p, ({ guardrails := some guardedConfig.guardrailsOrNone } : Reconciler).prepare
      twoZones recordedTwo [firstHost, strayHost] = .ok p ∧ p.plan.deletes = ["h3"] :=
    ⟨_, rfl, by decide +kernel⟩
  obtain ⟨p, prepared, deletes⟩ := evaluated
  obtain ⟨-, resulting, -, -, guarded⟩ := prepare_counts_declared named prepared
  have refused := guarded guardedConfig _ accepted rfl rfl
  rw [deletes] at refused
  exact ⟨named, accepted, p, prepared, deletes, resulting, refused⟩

end HostRoster
