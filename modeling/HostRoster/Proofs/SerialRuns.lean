import HostRoster.Proofs.Operations
import HostRoster.Proofs.Stages

/-!
# Errands that run at the same time

Any number of errands share one record, and each operation of its store is done in one
step. A lock that has not expired keeps all others out, from the load to the save. It is
never renewed, and the cluster may take any time to change, so an errand can come back
after its lock was taken over. If no errand saves after its lock has expired, the errands
might as well have run one after the other in the order of their saves.
-/
namespace HostRoster

/-- The store of a shelf, a cluster that takes any time and gives any outcome, and a clock. -/
inductive Shelf.Responds (time : Instant) : Shelf → Exchange Errands → Shelf → Prop
  | store {s s' : Shelf} {call : StoreCall} {reply : Except StateError call.Answer}
      (performed : Performs time s ⟨call, reply⟩ s') : Responds time s ⟨.store call, reply⟩ s'
  | reconcile (s : Shelf) (prior : HostMap) (outcome : Except SyncError Outcome) :
      Responds time s ⟨.reconcile prior, outcome⟩ s
  | destroy (s : Shelf) (prior : HostMap) (outcome : Except SyncError Outcome) :
      Responds time s ⟨.destroy prior, outcome⟩ s
  | now (s : Shelf) : Responds time s ⟨.now, time⟩ s

namespace Errand
open HostRoster.Shelf

variable {ι : Type} {s s' last : Shelf} {t time now : Instant} {stages : ι → Stage}

/-- The errands hold locks of their own, and the stored lock is that of an errand whose lock has
not expired. -/
structure Orderly (t : Instant) (s : Shelf) (stages : ι → Stage) : Prop where
  stored : ∃ kept, s.Keeps kept
  known : ∀ i l, (stages i).lock? = some l → l.id ∈ s.given
  apart : ∀ i j l l', (stages i).lock? = some l → (stages j).lock? = some l' → l.id = l'.id → i = j
  held : ∀ i l, (stages i).lock? = some l → l.isExpired t = false → s.Keeps (some l)

/-- At most one errand holds a lock that has not expired. -/
theorem Orderly.exclusive {i j : ι} {l l' : Lock} (h : Orderly t s stages)
    (first : (stages i).lock? = some l) (second : (stages j).lock? = some l')
    (alive : l.isExpired t = false) (alive' : l'.isExpired t = false) : i = j := by
  have same := (h.held i l first alive).unique (h.held j l' second alive')
  obtain rfl := Option.some.inj same
  exact h.apart i j l l first second rfl

/-- A turn in which no errand takes a lock and the stored lock stays as it is. -/
theorem Orderly.of_same [DecidableEq ι] {c : ι} {stage : Stage} (h : Orderly t s stages)
    (later : time.isBefore t = false) (keeps : ∀ kept, s.Keeps kept → s'.Keeps kept)
    (given : s.given ⊆ s'.given) (less : ∀ l, stage.lock? = some l → (stages c).lock? = some l) :
    Orderly time s' (Function.update stages c stage) := by
  have before : ∀ i l, (Function.update stages c stage i).lock? = some l →
      (stages i).lock? = some l := by
    intro i l holds
    by_cases here : i = c
    · subst here
      rw [Function.update_self] at holds
      exact less l holds
    · rwa [Function.update_of_ne here] at holds
  constructor
  · obtain ⟨kept, stored⟩ := h.stored
    exact ⟨kept, keeps kept stored⟩
  · intro i l holds
    exact given (h.known i l (before i l holds))
  · intro i j l l' holds holds'
    exact h.apart i j l l' (before i l holds) (before j l' holds')
  · intro i l holds alive
    exact keeps _ (h.held i l (before i l holds) (Lock.holds_earlier alive later))

/-- An errand that takes the lock finds every other errand's lock expired. -/
theorem Orderly.enter [DecidableEq ι] {c : ι} {holder : String} {l : Lock} (h : Orderly t s stages)
    (later : time.isBefore t = false)
    (took : Performs time s ⟨.acquire holder, Except.ok l⟩ s') :
    Orderly time s' (Function.update stages c (.inside l)) := by
  obtain ⟨kept, stored⟩ := h.stored
  obtain ⟨stored', free, -, fresh⟩ := took.taken stored
  have cases_of : ∀ i k, (Function.update stages c (.inside l) i).lock? = some k →
      i = c ∧ k = l ∨ i ≠ c ∧ (stages i).lock? = some k := by
    intro i k holds
    by_cases here : i = c
    · subst here
      rw [Function.update_self] at holds
      exact .inl ⟨rfl, (Option.some.inj holds).symm⟩
    · rw [Function.update_of_ne here] at holds
      exact .inr ⟨here, holds⟩
  constructor
  · exact ⟨some l, stored'⟩
  · intro i k holds
    rcases cases_of i k holds with ⟨-, rfl⟩ | ⟨-, before⟩
    · exact stored'.known k rfl
    · exact took.given (h.known i k before)
  · intro i j k k' holds holds' same
    rcases cases_of i k holds with ⟨rfl, rfl⟩ | ⟨-, before⟩ <;>
      rcases cases_of j k' holds' with ⟨rfl, rfl⟩ | ⟨-, before'⟩
    · rfl
    · exact absurd (same ▸ h.known j k' before') fresh
    · exact absurd (same ▸ h.known i k before) fresh
    · exact h.apart i j k k' before before' same
  · intro i k holds alive
    rcases cases_of i k holds with ⟨-, rfl⟩ | ⟨-, before⟩
    · exact stored'
    · have kept_before := h.held i k before (Lock.holds_earlier alive later)
      have expired := free k (stored.unique kept_before)
      rw [alive] at expired
      cases expired

/-- An errand that gives its lock back leaves every other errand's lock alone. -/
theorem Orderly.leave [DecidableEq ι] {c : ι} {l : Lock} {reply : Except StateError Unit}
    (h : Orderly t s stages) (later : time.isBefore t = false) (holds : (stages c).lock? = some l)
    (gave : Performs time s ⟨.release l.id, reply⟩ s') :
    Orderly time s' (Function.update stages c .ended) := by
  obtain ⟨kept, stored⟩ := h.stored
  obtain ⟨kept', stored', -⟩ := gave.movesLock stored
  have others : ∀ i k, (Function.update stages c .ended i).lock? = some k →
      i ≠ c ∧ (stages i).lock? = some k := by
    intro i k holds
    by_cases here : i = c
    · subst here
      rw [Function.update_self] at holds
      cases holds
    · rw [Function.update_of_ne here] at holds
      exact ⟨here, holds⟩
  constructor
  · exact ⟨kept', stored'⟩
  · intro i k other
    exact gave.given (h.known i k (others i k other).2)
  · intro i j k k' other other'
    exact h.apart i j k k' (others i k other).2 (others j k' other').2
  · intro i k other alive
    obtain ⟨apart, before⟩ := others i k other
    have kept_before := h.held i k before (Lock.holds_earlier alive later)
    obtain ⟨-, same⟩ := (performs_release kept_before).1 gave
    have foreign : (some k).map Lock.id ≠ some l.id := fun same =>
      apart (h.apart i c k l before holds (Option.some.inj same))
    rw [same, if_neg foreign]
    exact kept_before

theorem Orderly.step [DecidableEq ι] {c : ι} {e : Exchange Errands} {stage : Stage}
    (h : Orderly t s stages) (later : time.isBefore t = false) (served : Responds time s e s')
    (advanced : Advances (stages c) e stage) :
    Orderly time s' (Function.update stages c stage) := by
  generalize was : stages c = stage₀ at advanced
  cases advanced with
  | enter holder l =>
    cases served with
    | store took => exact h.enter later took
  | refused holder e =>
    cases served with
    | store refused =>
      refine h.of_same later (fun kept stored => ?_) refused.given nofun
      obtain ⟨kept', stored', moved⟩ := refused.movesLock stored
      cases moved with
      | refused _ => exact stored'
  | load l found =>
    cases served with
    | store loaded =>
      obtain ⟨-, rfl⟩ := performs_load.1 loaded
      exact h.of_same later (fun _ stored => stored) (List.Subset.refl _) (by simp [was, Stage.lock?])
  | now l found now =>
    cases served
    exact h.of_same later (fun _ stored => stored) (List.Subset.refl _) (by simp [was])
  | reconcile l found prior outcome =>
    cases served
    exact h.of_same later (fun _ stored => stored) (List.Subset.refl _) (by simp [was])
  | destroy l found prior outcome =>
    cases served
    exact h.of_same later (fun _ stored => stored) (List.Subset.refl _) (by simp [was])
  | save l found state reply =>
    cases served with
    | store saved =>
      have given := saved.given
      obtain ⟨-, rfl⟩ := performs_save.1 saved
      refine h.of_same later (fun kept stored => stored.mono ?_ given) given
        (by simp [was, Stage.lock?])
      exact text_put_of_ne _ (by decide) _
  | leave holds reply =>
    cases served with
    | store gave => exact h.leave later (was ▸ holds) gave

/-- The stages that the errands have reached after some turns. -/
abbrev Reached [DecidableEq ι] (turns : List (Turn ι Errands)) (stages : ι → Stage) : Prop :=
  HaveReached (fun _ => Advances) .outside turns stages

/-- Locks stay in order, whatever turns the errands take. -/
theorem orderly_of_timeline [DecidableEq ι] {existing : Option Lock} {turns : List (Turn ι Errands)}
    (line : Timeline Responds t s turns now last) (stored : s.Keeps existing)
    (reached : Reached turns stages) : Orderly now last stages := by
  refine line.invariant (fun before noon mid => ∀ stages, Reached before stages →
    Orderly noon mid stages) ?_ ?_ stages reached
  · intro stages reached
    have outside : ∀ i, stages i = .outside := fun i => (reached i).eq_of_nil
    constructor
    · exact ⟨existing, stored⟩
    all_goals simp [outside, Stage.lock?]
  · rintro before turn noon mid next - - orderly later served stages' reached
    obtain ⟨stages, stage, earlier, advanced, rfl⟩ := HaveReached.of_snoc reached
    exact (orderly stages earlier).step later served advanced

/-- What was saved last, or else was there in the beginning. -/
def savedLast (start : Option String) (turns : List (Turn ι Errands)) : Option String :=
  turns.foldl (fun text turn =>
    match turn.exchange.request with
    | .store (.save state) => some state.document
    | _ => text) start

theorem savedLast_append (start : Option String) (a b : List (Turn ι Errands)) :
    savedLast start (a ++ b) = savedLast (savedLast start a) b :=
  List.foldl_append

/-- Turns without a save leave what was saved. -/
theorem savedLast_of_none {start : Option String} {turns : List (Turn ι Errands)}
    (none_saves : ∀ turn ∈ turns, ∀ state, turn.exchange.request ≠ .store (.save state)) :
    savedLast start turns = start := by
  induction turns with
  | nil => rfl
  | cons turn rest ih =>
    have kept : savedLast start [turn] = start := by
      have reads := none_saves turn List.mem_cons_self
      simp only [savedLast, List.foldl_cons, List.foldl_nil]
    rw [← List.singleton_append, savedLast_append, kept]
    exact ih fun other mem => none_saves other (List.mem_cons_of_mem _ mem)

/-- Only errands that save change the stored state. -/
theorem text_of_timeline [DecidableEq ι] {existing : Option Lock} {turns : List (Turn ι Errands)}
    (line : Timeline Responds t s turns now last) (stored : s.Keeps existing)
    (reached : Reached turns stages) : last.text .state = savedLast (s.text .state) turns := by
  refine line.invariant (fun before noon mid => ∀ stages, Reached before stages →
    mid.text .state = savedLast (s.text .state) before) (fun _ _ => rfl) ?_ stages reached
  rintro before turn noon mid next - past text later served stages' reached
  obtain ⟨stages, stage, earlier, advanced, -⟩ := HaveReached.of_snoc reached
  obtain ⟨kept, stored⟩ := (orderly_of_timeline past stored earlier).stored
  have same := text stages earlier
  rw [savedLast_append, ← same]
  obtain ⟨client, time, e⟩ := turn
  replace served : Responds time mid e next := served
  generalize stages client = was at advanced
  cases advanced with
  | enter =>
    cases served with
    | store took => exact took.text_state stored nofun nofun
  | refused =>
    cases served with
    | store refused => exact refused.text_state stored nofun nofun
  | load =>
    cases served with
    | store loaded => exact loaded.text_state stored nofun nofun
  | now => cases served; rfl
  | reconcile => cases served; rfl
  | destroy => cases served; rfl
  | save l found state reply =>
    cases served with
    | store saved =>
      obtain ⟨-, rfl⟩ := performs_save.1 saved
      exact text_put ..
  | leave =>
    cases served with
    | store gave => exact gave.text_state stored nofun nofun

/-- A save between the load and the save of another errand comes after the lock of one of the two
has expired. -/
theorem expired_of_overtaken [DecidableEq ι] {existing : Option Lock}
    {before after : List (Turn ι Errands)} {i j : ι} {state state' : ClusterState}
    {reply reply' : Except StateError Unit} {found : Except StateError (Option ClusterState)}
    (whole : ∀ i, ∃ stage, History Advances .outside
      (Turn.own i (before ++ ⟨j, time, ⟨.store (.save state), reply⟩⟩ :: after)) stage)
    (line : Timeline Responds t s (before ++ ⟨j, time, ⟨.store (.save state), reply⟩⟩ :: after) now last)
    (stored : s.Keeps existing) (other : i ≠ j)
    (loads : ⟨.store .load, found⟩ ∈ Turn.own i before)
    (saves : ⟨.store (.save state'), reply'⟩ ∈ Turn.own i after) :
    ∃ l l', (∃ holder, ⟨.store (.acquire holder), Except.ok l⟩ ∈ Turn.own i before) ∧
      (∃ holder, ⟨.store (.acquire holder), Except.ok l'⟩ ∈ Turn.own j before) ∧
      (l.isExpired time = true ∨ l'.isExpired time = true) := by
  obtain ⟨stages, ends, reached, onward⟩ := HaveReached.exists_cut whole
  obtain ⟨noon, mid, past, today⟩ := Timeline.append_iff.1 line
  cases today with
  | move later served _ =>
    have orderly := orderly_of_timeline past stored reached
    -- the other errand saves next, and this one has loaded and is yet to save
    have own := onward j
    rw [Turn.own_cons ⟨j, time, _⟩ after] at own
    obtain ⟨l', found', second⟩ := loaded_of_save own
    have mine := onward i
    rw [Turn.own_cons_of_ne (Ne.symm other)] at mine
    obtain ⟨l, found, first⟩ :=
      loaded_of_rank (Nat.le_antisymm (rank_le_of_save mine saves) (le_rank_of_load (reached i) loads))
    have first : (stages i).lock? = some l := by rw [first]; rfl
    have second : (stages j).lock? = some l' := by rw [second]; rfl
    refine ⟨l, l', (taken_of_history (reached i) first).resolve_left nofun,
      (taken_of_history (reached j) second).resolve_left nofun, ?_⟩
    by_contra alive
    simp only [not_or, Bool.not_eq_true] at alive
    exact other (orderly.exclusive first second (Lock.holds_earlier alive.1 later)
      (Lock.holds_earlier alive.2 later))

/-- Every errand that saves does so while its lock holds. -/
def SavesInTime [DecidableEq ι] (turns : List (Turn ι Errands)) : Prop :=
  ∀ (before after : List (Turn ι Errands)) (i : ι) (time : Instant) (state : ClusterState)
    (reply : Except StateError Unit),
    turns = before ++ ⟨i, time, ⟨.store (.save state), reply⟩⟩ :: after →
    ∀ (holder : String) (l : Lock), ⟨.store (.acquire holder), Except.ok l⟩ ∈ Turn.own i before →
      l.isExpired time = false

/-- An errand does not save again between its load and its save. -/
theorem own_saves_once {state state' : ClusterState} {reply reply' : Except StateError Unit}
    {exchanges : List (Exchange Errands)} {stage last : Stage}
    (h : History Advances stage (⟨.store (.save state), reply⟩ :: exchanges) last) :
    ⟨.store (.save state'), reply'⟩ ∉ exchanges := by
  intro again
  cases h with
  | move saved onward =>
    obtain ⟨l, found, -, rfl⟩ := saved.of_save
    have early := rank_le_of_save onward again
    simp [Stage.rank] at early

section InTime
variable [DecidableEq ι] {existing : Option Lock} {turns before after : List (Turn ι Errands)} {i : ι}
  {state : ClusterState} {reply : Except StateError Unit}

/-- If every save is in time, nobody saves between the load and the save of an errand. -/
theorem none_saves_between (whole : ∀ i, ∃ stage, History Advances .outside (Turn.own i turns) stage)
    (line : Timeline Responds t s turns now last) (stored : s.Keeps existing)
    (inTime : SavesInTime turns) {between : List (Turn ι Errands)} {loadTime : Instant}
    {found : Except StateError (Option ClusterState)}
    (split : turns = before ++ ⟨i, loadTime, ⟨.store .load, found⟩⟩ ::
      (between ++ ⟨i, time, ⟨.store (.save state), reply⟩⟩ :: after)) :
    ∀ turn ∈ between, ∀ state', turn.exchange.request ≠ .store (.save state') := by
  rintro ⟨j, middle, request, reply'⟩ mem state' rfl
  obtain ⟨early, late, rfl⟩ := List.append_of_mem mem
  have around : turns = (before ++ ⟨i, loadTime, ⟨.store .load, found⟩⟩ :: early) ++
      ⟨j, middle, ⟨.store (.save state'), reply'⟩⟩ ::
        (late ++ ⟨i, time, ⟨.store (.save state), reply⟩⟩ :: after) := by
    simp [split]
  have loads : ⟨.store .load, found⟩ ∈
      Turn.own i (before ++ ⟨i, loadTime, ⟨.store .load, found⟩⟩ :: early) :=
    Turn.mem_own.2 ⟨_, List.mem_append_right _ List.mem_cons_self, rfl, rfl⟩
  have saves : ⟨.store (.save state), reply⟩ ∈
      Turn.own i (late ++ ⟨i, time, ⟨.store (.save state), reply⟩⟩ :: after) :=
    Turn.mem_own.2 ⟨_, List.mem_append_right _ List.mem_cons_self, rfl, rfl⟩
  rw [around] at whole line
  by_cases own : j = i
  · subst own
    obtain ⟨stages, ends, -, onward⟩ := HaveReached.exists_cut whole
    have mine := onward j
    rw [Turn.own_cons ⟨j, middle, _⟩ _] at mine
    exact own_saves_once mine saves
  · obtain ⟨l, l', ⟨holder, took⟩, ⟨holder', took'⟩, expired⟩ :=
      expired_of_overtaken whole line stored (Ne.symm own) loads saves
    have alive' : l'.isExpired middle = false := inTime _ _ _ _ _ _ around holder' l' took'
    have wide : turns = ((before ++ ⟨i, loadTime, ⟨.store .load, found⟩⟩ :: early) ++
        ⟨j, middle, ⟨.store (.save state'), reply'⟩⟩ :: late) ++
          ⟨i, time, ⟨.store (.save state), reply⟩⟩ :: after := by
      simp [split]
    have alive : l.isExpired time = false := by
      refine inTime _ _ _ _ _ _ wide holder l ?_
      rw [Turn.own_append]
      exact List.mem_append_left _ took
    obtain ⟨noon, mid, -, today⟩ := Timeline.append_iff.1 line
    cases today with
    | move _ _ others =>
      obtain ⟨-, -, -, later, -⟩ := others.of_mem (List.mem_append_right late List.mem_cons_self)
      rcases expired with expired | expired
      · exact absurd expired (by simp [Lock.holds_earlier alive later])
      · exact absurd expired (by simp [alive'])

/-- If every save is in time, an errand that saves has loaded what was saved last. -/
theorem loaded_of_inTime (whole : ∀ i, ∃ stage, History Advances .outside (Turn.own i turns) stage)
    (line : Timeline Responds t s turns now last) (stored : s.Keeps existing)
    (inTime : SavesInTime turns)
    (split : turns = before ++ ⟨i, time, ⟨.store (.save state), reply⟩⟩ :: after) :
    ⟨.store .load, StoreCall.ofText ClusterState.parse (.ok (savedLast (s.text .state) before))⟩ ∈
      Turn.own i before := by
  obtain ⟨stages, ends, reached, onward⟩ := HaveReached.exists_cut (split ▸ whole)
  have mine := onward i
  rw [Turn.own_cons ⟨i, time, _⟩ after] at mine
  obtain ⟨l, found, loaded⟩ := loaded_of_save mine
  have loads := (loaded_of_history (reached i) loaded).resolve_left nofun
  obtain ⟨⟨j, loadTime, e⟩, mem, rfl, shape⟩ := Turn.mem_own.1 loads
  obtain rfl : e = ⟨.store .load, found⟩ := shape
  obtain ⟨early, between, rfl⟩ := List.append_of_mem mem
  have around : turns = early ++ ⟨j, loadTime, ⟨.store .load, found⟩⟩ ::
      (between ++ ⟨j, time, ⟨.store (.save state), reply⟩⟩ :: after) := by
    simp [split]
  have quiet := none_saves_between whole line stored inTime around
  rw [around] at line whole
  obtain ⟨noon, mid, past, today⟩ := Timeline.append_iff.1 line
  cases today with
  | move _ served _ =>
    obtain ⟨stages, -, earlier, -⟩ := HaveReached.exists_cut whole
    have text := text_of_timeline past stored earlier
    cases served with
    | store read =>
      have shown : found = StoreCall.ofText ClusterState.parse (.ok (mid.text .state)) :=
        (performs_load.1 read).1
      have same : savedLast (s.text .state) (early ++ ⟨j, loadTime, ⟨.store .load, found⟩⟩ :: between) =
          mid.text .state := by
        rw [savedLast_append, ← text]
        refine savedLast_of_none fun turn mem => ?_
        rcases List.mem_cons.1 mem with rfl | mem
        · exact nofun
        · exact quiet turn mem
      rw [same, ← shown]
      exact loads

end InTime

def sampleTarget : Target := ⟨"c1", "c1", "production", "", []⟩

/-- What a run on a cluster without a record gives. -/
def sampleOutcome (name : String) : Outcome :=
  { clusterId := "c1", phase := .stable,
    hosts := (∅ : HostMap).insert name { zone := "z", assignedName := name } }

/-- The lock that an errand takes. -/
def sampleLock (client : Bool) (time : Instant) : Lock :=
  StoreCall.claimed time (cond client "3" "1") (cond client "quick" "slow") "process"
    (cond client "4" "2")

def sampleState (client : Bool) (loadTime saveTime : Instant) : ClusterState :=
  succeeded sampleTarget (.new loadTime "c1" "c1" "production") saveTime .create
    (sampleOutcome (cond client "quick" "slow"))

/-- The exchanges of an errand that finds no record and saves a new one. -/
def sampleExchanges (client : Bool) (loadTime saveTime : Instant) : List (Exchange Errands) :=
  [⟨.store (.acquire (cond client "quick" "slow")), Except.ok (sampleLock client loadTime)⟩,
    ⟨.store .load, Except.ok none⟩, ⟨.now, loadTime⟩,
    ⟨.reconcile ∅, Except.ok (sampleOutcome (cond client "quick" "slow"))⟩, ⟨.now, saveTime⟩,
    ⟨.store (.save (sampleState client loadTime saveTime)), Except.ok ()⟩,
    ⟨.store (.release (sampleLock client loadTime).id), Except.ok ()⟩]

theorem sampleExchanges_follow (client : Bool) (loadTime saveTime : Instant) :
    (apply sampleTarget (cond client "quick" "slow")).Follows
      (sampleExchanges client loadTime saveTime)
      (.done (.ok (sampleOutcome (cond client "quick" "slow")))) :=
  .ask (.ask (.ask (.ask (.ask (.ask (.ask (.rest _)))))))

/-- The slow errand loads, the quick one takes over its expired lock, loads and saves, and then the
slow one saves too. -/
def overrunTurns : List (Turn Bool Errands) :=
  ((sampleExchanges false ⟨0, 0⟩ ⟨302, 0⟩).take 4).map (⟨false, ⟨0, 0⟩, ·⟩) ++
    (sampleExchanges true ⟨301, 0⟩ ⟨301, 0⟩).map (⟨true, ⟨301, 0⟩, ·⟩) ++
    ((sampleExchanges false ⟨0, 0⟩ ⟨302, 0⟩).drop 4).map (⟨false, ⟨302, 0⟩, ·⟩)

def slowShelf : Shelf :=
  ({ given := ["2", "1"] } : Shelf).put .lock (some (sampleLock false ⟨0, 0⟩).document)

def quickShelf : Shelf :=
  { slowShelf with given := "4" :: "3" :: slowShelf.given }.put .lock
    (some (sampleLock true ⟨301, 0⟩).document)

def quickSavedShelf : Shelf :=
  (quickShelf.put .state (some (sampleState true ⟨301, 0⟩ ⟨301, 0⟩).document)).put .lock none

def overrunShelf : Shelf :=
  quickSavedShelf.put .state (some (sampleState false ⟨0, 0⟩ ⟨302, 0⟩).document)

theorem overrun : Interleaves Responds (fun client => apply sampleTarget (cond client "quick" "slow"))
    ⟨0, 0⟩ {} overrunTurns ⟨302, 0⟩ overrunShelf
    fun client => .done (.ok (sampleOutcome (cond client "quick" "slow"))) where
  timeline := by
    have slow : Performs ⟨0, 0⟩ {} ⟨.acquire "slow", Except.ok (sampleLock false ⟨0, 0⟩)⟩ slowShelf :=
      (performs_acquire (keeps_none rfl)).2
        ⟨by decide, "1", "process", "2", by decide, by decide, rfl, rfl⟩
    have slowKept := (slow.taken (keeps_none rfl)).1
    have quick : Performs ⟨301, 0⟩ slowShelf
        ⟨.acquire "quick", Except.ok (sampleLock true ⟨301, 0⟩)⟩ quickShelf :=
      (performs_acquire slowKept).2
        ⟨by decide, "3", "process", "4", by decide, by decide, rfl, rfl⟩
    have quickKept := (quick.taken slowKept).1
    have savedKept : (quickShelf.put .state
        (some (sampleState true ⟨301, 0⟩ ⟨301, 0⟩).document)).Keeps
          (some (sampleLock true ⟨301, 0⟩)) :=
      quickKept.mono (text_put_of_ne _ (by decide) _) (by rw [given_put]; exact List.Subset.refl _)
    have overrunKept : overrunShelf.Keeps none := keeps_none rfl
    refine .move rfl (.store slow) (.move rfl (.store (performs_load.2 ⟨rfl, rfl⟩)) ?_)
    refine .move rfl (.now _) (.move rfl (.reconcile ..) ?_)
    refine .move rfl (.store quick) (.move rfl (.store (performs_load.2 ⟨rfl, rfl⟩)) ?_)
    refine .move rfl (.now _) (.move rfl (.reconcile ..) (.move rfl (.now _) ?_))
    refine .move rfl (.store (performs_save.2 ⟨rfl, rfl⟩)) ?_
    refine .move rfl (.store ((performs_release savedKept).2 ⟨rfl, (if_pos rfl).symm⟩)) ?_
    refine .move rfl (.now _) (.move rfl (.store (performs_save.2 ⟨rfl, rfl⟩)) ?_)
    exact .move rfl (.store ((performs_release overrunKept).2 ⟨rfl, (if_neg nofun).symm⟩)) (.rest _ _)
  follows client := by
    cases client with
    | false => exact sampleExchanges_follow false ⟨0, 0⟩ ⟨302, 0⟩
    | true => exact sampleExchanges_follow true ⟨301, 0⟩ ⟨301, 0⟩

/-- Between the load and the save of an errand another saves only after the lock of one of the two
has expired. If all of them save in time, each has loaded what was saved last before its own save,
as if the errands had run one after the other. -/
theorem errands_serial {ι : Type} [DecidableEq ι] {t now : Instant} {s last : Shelf}
    {turns : List (Turn ι Errands)} {existing : Option Lock}
    {programs rests : ι → Program Errands (Except SyncError Outcome)}
    (errands : ∀ i, ∃ target holder, programs i = apply target holder ∨
      programs i = destroy target holder)
    (stored : s.Keeps existing) (run : Interleaves Responds programs t s turns now last rests) :
    (∀ (before after : List (Turn ι Errands)) (i j : ι) (time : Instant)
      (state state' : ClusterState) (reply reply' : Except StateError Unit)
      (found : Except StateError (Option ClusterState)),
      turns = before ++ ⟨j, time, ⟨.store (.save state), reply⟩⟩ :: after → i ≠ j →
      ⟨.store .load, found⟩ ∈ Turn.own i before →
      ⟨.store (.save state'), reply'⟩ ∈ Turn.own i after →
      ∃ l l', (∃ holder, ⟨.store (.acquire holder), Except.ok l⟩ ∈ Turn.own i before) ∧
        (∃ holder, ⟨.store (.acquire holder), Except.ok l'⟩ ∈ Turn.own j before) ∧
        (l.isExpired time = true ∨ l'.isExpired time = true)) ∧
    (SavesInTime turns →
      ∀ (before after : List (Turn ι Errands)) (i : ι) (time : Instant) (state : ClusterState)
        (reply : Except StateError Unit),
        turns = before ++ ⟨i, time, ⟨.store (.save state), reply⟩⟩ :: after →
        ⟨.store .load, StoreCall.ofText ClusterState.parse (.ok (savedLast (s.text .state) before))⟩ ∈
          Turn.own i before) := by
  have whole : ∀ i, ∃ stage, History Advances .outside (Turn.own i turns) stage := by
    intro i
    obtain ⟨target, holder, applies | destroys⟩ := errands i
    · exact (applies ▸ conforms_apply target holder).history (run.follows i)
    · exact (destroys ▸ conforms_destroy target holder).history (run.follows i)
  constructor
  · intro before after i j time state state' reply reply' found split other loads saves
    subst split
    exact expired_of_overtaken whole run.timeline stored other loads saves
  · intro inTime before after i time state reply split
    exact loaded_of_inTime whole run.timeline stored inTime split

theorem errands_serial_overrun :
    ∃ l l', (∃ holder, ⟨.store (.acquire holder), Except.ok l⟩ ∈ Turn.own false overrunTurns) ∧
      (∃ holder, ⟨.store (.acquire holder), Except.ok l'⟩ ∈ Turn.own true overrunTurns) ∧
      (l.isExpired ⟨301, 0⟩ = true ∨ l'.isExpired ⟨301, 0⟩ = true) := by
  have errands : ∀ client : Bool, ∃ target holder,
      apply sampleTarget (cond client "quick" "slow") = apply target holder ∨
        apply sampleTarget (cond client "quick" "slow") = destroy target holder :=
    fun client => ⟨_, _, .inl rfl⟩
  obtain ⟨l, l', ⟨holder, took⟩, ⟨holder', took'⟩, expired⟩ :=
    (errands_serial errands (keeps_none rfl) overrun).1 (overrunTurns.take 9) (overrunTurns.drop 10)
      false true ⟨301, 0⟩ (sampleState true ⟨301, 0⟩ ⟨301, 0⟩) (sampleState false ⟨0, 0⟩ ⟨302, 0⟩)
      (.ok ()) (.ok ()) (.ok none) rfl (by decide) (.tail _ (.head _)) (.tail _ (.head _))
  refine ⟨l, l', ⟨holder, ?_⟩, ⟨holder', ?_⟩, expired⟩
  · exact List.mem_append_left (Turn.own false (overrunTurns.drop 9)) took
  · exact List.mem_append_left (Turn.own true (overrunTurns.drop 9)) took'

/-- The quick errand saves between the load and the save of the slow one, and what it has saved is
gone in the end. -/
theorem quick_save_lost : ∃ (last : Shelf)
    (rests : Bool → Program Errands (Except SyncError Outcome))
    (before after : List (Turn Bool Errands)) (time : Instant) (state state' : ClusterState),
    Interleaves Responds (fun client => apply sampleTarget (cond client "quick" "slow")) ⟨0, 0⟩ {}
      (before ++ ⟨true, time, ⟨.store (.save state), Except.ok ()⟩⟩ :: after) ⟨302, 0⟩ last rests ∧
    ⟨.store .load, Except.ok none⟩ ∈ Turn.own false before ∧
    ⟨.store (.save state'), Except.ok ()⟩ ∈ Turn.own false after ∧
    last.text .state = some state'.document :=
  ⟨overrunShelf, _, overrunTurns.take 9, overrunTurns.drop 10, ⟨301, 0⟩,
    sampleState true ⟨301, 0⟩ ⟨301, 0⟩, sampleState false ⟨0, 0⟩ ⟨302, 0⟩, overrun,
    .tail _ (.head _), .tail _ (.head _), text_put ..⟩

end Errand

end HostRoster
