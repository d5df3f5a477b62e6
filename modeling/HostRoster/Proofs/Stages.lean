import HostRoster.Errand
import HostRoster.Proofs.Protocols
import Mathlib.Order.Basic

/-!
# The stages of an errand

Whatever an errand is told, it takes the lock, loads the record, looks at the cluster,
saves at most once, and gives the lock back last. These are stages that it goes through
in one direction, so that from a load before and a save after it can be seen which stage
an errand has reached in between.
-/
namespace HostRoster

namespace Errand

/-- How far an errand has come. -/
inductive Stage where
  | outside
  | inside (lock : Lock)
  | loaded (lock : Lock) (found : Except StateError (Option ClusterState))
  | saved (lock : Lock)
  | ended

namespace Stage

/-- The lock that was taken and not given back. -/
def lock? : Stage → Option Lock
  | inside l => some l
  | loaded l _ => some l
  | saved l => some l
  | _ => none

def rank : Stage → Nat
  | outside => 0
  | inside _ => 1
  | loaded .. => 2
  | saved _ => 3
  | ended => 4

end Stage

/-- What an errand asks at each stage. -/
inductive Advances : Stage → Exchange Errands → Stage → Prop
  | enter (holder : String) (l : Lock) :
      Advances .outside ⟨.store (.acquire holder), Except.ok l⟩ (.inside l)
  | refused (holder : String) (e : StateError) :
      Advances .outside ⟨.store (.acquire holder), Except.error e⟩ .ended
  | load (l : Lock) (found : Except StateError (Option ClusterState)) :
      Advances (.inside l) ⟨.store .load, found⟩ (.loaded l found)
  | now (l : Lock) (found : Except StateError (Option ClusterState)) (now : Instant) :
      Advances (.loaded l found) ⟨.now, now⟩ (.loaded l found)
  | reconcile (l : Lock) (found : Except StateError (Option ClusterState)) (prior : HostMap)
      (outcome : Except SyncError Outcome) :
      Advances (.loaded l found) ⟨.reconcile prior, outcome⟩ (.loaded l found)
  | destroy (l : Lock) (found : Except StateError (Option ClusterState)) (prior : HostMap)
      (outcome : Except SyncError Outcome) :
      Advances (.loaded l found) ⟨.destroy prior, outcome⟩ (.loaded l found)
  | save (l : Lock) (found : Except StateError (Option ClusterState)) (state : ClusterState)
      (reply : Except StateError Unit) :
      Advances (.loaded l found) ⟨.store (.save state), reply⟩ (.saved l)
  | leave {stage : Stage} {l : Lock} (holds : stage.lock? = some l)
      (reply : Except StateError Unit) : Advances stage ⟨.store (.release l.id), reply⟩ .ended

variable {stage last : Stage} {exchanges : List (Exchange Errands)}

theorem Advances.rank_le {e : Exchange Errands} (h : Advances stage e last) :
    stage.rank ≤ last.rank := by
  cases h with
  | leave => cases stage <;> simp [Stage.rank]
  | _ => simp [Stage.rank]

theorem rank_le_of_history (h : History Advances stage exchanges last) :
    stage.rank ≤ last.rank := by
  induction h with
  | rest stage => exact Nat.le_refl _
  | move first _ ih => exact Nat.le_trans first.rank_le ih

/-- A lock that is held was taken in some exchange. -/
theorem taken_of_history {l : Lock} (h : History Advances stage exchanges last)
    (holds : last.lock? = some l) :
    stage.lock? = some l ∨ ∃ holder, ⟨.store (.acquire holder), Except.ok l⟩ ∈ exchanges := by
  induction h with
  | rest stage => exact .inl holds
  | move first _ ih =>
    rcases ih holds with held | ⟨holder, taken⟩
    · cases first with
      | enter holder l' =>
        obtain rfl := Option.some.inj held
        exact .inr ⟨holder, List.mem_cons_self⟩
      | refused => cases held
      | leave => cases held
      | _ => exact .inl held
    · exact .inr ⟨holder, List.mem_cons_of_mem _ taken⟩

/-- Before a save no errand has got further than loading. -/
theorem rank_le_of_save {state : ClusterState} {reply : Except StateError Unit}
    (h : History Advances stage exchanges last)
    (saves : ⟨.store (.save state), reply⟩ ∈ exchanges) : stage.rank ≤ 2 := by
  induction h with
  | rest stage => cases saves
  | move first _ ih =>
    rcases List.mem_cons.1 saves with rfl | later
    · cases first
      exact Nat.le_refl _
    · exact Nat.le_trans first.rank_le (ih later)

/-- After a load every errand has got as far as that. -/
theorem le_rank_of_load {found : Except StateError (Option ClusterState)}
    (h : History Advances stage exchanges last) (loads : ⟨.store .load, found⟩ ∈ exchanges) :
    2 ≤ last.rank := by
  induction h with
  | rest stage => cases loads
  | move first others ih =>
    rcases List.mem_cons.1 loads with rfl | later
    · cases first
      exact rank_le_of_history others
    · exact ih later

/-- What an errand has loaded it was told in some exchange. -/
theorem loaded_of_history {l : Lock} {found : Except StateError (Option ClusterState)}
    (h : History Advances stage exchanges last) (ends : last = .loaded l found) :
    stage = .loaded l found ∨ ⟨.store .load, found⟩ ∈ exchanges := by
  induction h with
  | rest stage => exact .inl ends
  | move first _ ih =>
    rcases ih ends with same | loads
    · subst same
      cases first with
      | load => exact .inr List.mem_cons_self
      | now => exact .inl rfl
      | reconcile => exact .inl rfl
      | destroy => exact .inl rfl
    · exact .inr (List.mem_cons_of_mem _ loads)

/-- An errand saves what it has loaded, once. -/
theorem Advances.of_save {state : ClusterState} {reply : Except StateError Unit}
    (h : Advances stage ⟨.store (.save state), reply⟩ last) :
    ∃ l found, stage = .loaded l found ∧ last = .saved l := by
  cases h with
  | save l found => exact ⟨l, found, rfl, rfl⟩

/-- An errand that saves next has loaded. -/
theorem loaded_of_save {state : ClusterState} {reply : Except StateError Unit}
    (h : History Advances stage (⟨.store (.save state), reply⟩ :: exchanges) last) :
    ∃ l found, stage = .loaded l found := by
  cases h with
  | move saved _ =>
    obtain ⟨l, found, same, -⟩ := saved.of_save
    exact ⟨l, found, same⟩

/-- An errand that has loaded and will save is at the stage in between. -/
theorem loaded_of_rank (h : stage.rank = 2) : ∃ l found, stage = .loaded l found := by
  cases stage with
  | loaded l found => exact ⟨l, found, rfl⟩
  | _ => cases h

theorem conforms_record {target : Target} {state : ClusterState} {kind : RunKind}
    {outcome : Except SyncError Outcome} {l : Lock}
    {found : Except StateError (Option ClusterState)} :
    (record target state kind outcome).Conforms Advances (.loaded l found)
      fun _ stage => stage.lock? = some l := by
  intro now
  refine ⟨.loaded l found, .now l found now, ?_⟩
  cases outcome with
  | ok result =>
    intro (reply : Except StateError Unit)
    refine ⟨.saved l, .save l found _ reply, ?_⟩
    cases reply <;> rfl
  | error e =>
    intro reply
    exact ⟨.saved l, .save l found _ reply, rfl⟩

theorem conforms_loadState {target : Target} {l : Lock} :
    (loadState target).Conforms Advances (.inside l) fun _ stage => ∃ found, stage = .loaded l found := by
  intro (found : Except StateError (Option ClusterState))
  refine ⟨.loaded l found, .load l found, ?_⟩
  rcases found with e | _ | state
  · exact ⟨_, rfl⟩
  · exact fun now => ⟨_, .now l _ now, _, rfl⟩
  · exact ⟨_, rfl⟩

theorem conforms_recorded {target : Target} {kind : HostMap → RunKind}
    {run : HostMap → Program Errands (Except SyncError Outcome)} {l : Lock}
    (stays : ∀ prior found,
      (run prior).Conforms Advances (.loaded l found) fun _ stage => stage = .loaded l found) :
    (recorded target kind run).Conforms Advances (.inside l) fun _ stage => stage.lock? = some l := by
  refine Program.conforms_bind.2 (conforms_loadState.mono ?_)
  rintro loaded _ ⟨found, rfl⟩
  cases loaded with
  | error e => rfl
  | ok state =>
    refine Program.conforms_bind.2 ((stays state.hostMap found).mono ?_)
    rintro outcome _ rfl
    exact conforms_record

theorem conforms_withLock {holder : String} {work : Program Errands (Except SyncError Outcome)}
    (keeps : ∀ l, work.Conforms Advances (.inside l) fun _ stage => stage.lock? = some l) :
    (withLock perform holder work).Conforms Advances .outside fun _ _ => True := by
  intro (reply : Except StateError Lock)
  cases reply with
  | error e => exact ⟨.ended, .refused holder e, trivial⟩
  | ok l =>
    have held : (work >>= fun result => perform (.release l.id) >>= fun _ => pure result).Conforms
        Advances (.inside l) fun _ _ => True := by
      refine Program.conforms_bind.2 ((keeps l).mono ?_)
      intro result stage holds reply
      exact ⟨.ended, .leave holds reply, trivial⟩
    exact ⟨.inside l, .enter holder l, held⟩

theorem conforms_apply (target : Target) (holder : String) :
    (apply target holder).Conforms Advances .outside fun _ _ => True :=
  conforms_withLock fun _ => conforms_recorded fun prior found outcome =>
    ⟨_, .reconcile _ found prior outcome, rfl⟩

theorem conforms_destroy (target : Target) (holder : String) :
    (destroy target holder).Conforms Advances .outside fun _ _ => True :=
  conforms_withLock fun _ => conforms_recorded fun prior found outcome =>
    ⟨_, .destroy _ found prior outcome, rfl⟩

end Errand

end HostRoster
