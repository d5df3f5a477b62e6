import HostRoster.Proofs.Shelf

/-!
# Operations in one step

What each operation of a store does when nobody comes in between, derived from the calls
on documents that it is made of, and what it does to the stored lock.
-/
namespace HostRoster

namespace Lock

/-- A lock is free if there is none or it is expired. -/
theorem ensureFree_ok {existing : Option Lock} {now : Instant} {u : Unit} :
    ensureFree existing now = .ok u ↔ ∀ l ∈ existing, l.isExpired now = true := by
  cases existing with
  | none => simp [ensureFree]
  | some l => by_cases expired : l.isExpired now = true <;> simp [ensureFree, expired]

theorem ensureFree_error {existing : Option Lock} {now : Instant} {e : StateError} :
    ensureFree existing now = .error e ↔
      ∃ l, existing = some l ∧ l.isExpired now = false ∧ e = l.heldError := by
  cases existing with
  | none => simp [ensureFree]
  | some l =>
    by_cases expired : l.isExpired now = true
    · simp [ensureFree, expired]
    · have refused : ensureFree (some l) now = .error l.heldError := if_neg expired
      rw [refused]
      constructor
      · rintro ⟨⟩
        exact ⟨l, rfl, by simpa using expired, rfl⟩
      · rintro ⟨_, ⟨⟩, -, rfl⟩
        rfl

end Lock

namespace StoreCall

/-- What a document reads as. -/
def ofText {α : Type} (parse : String → Except StateError α) :
    Except StateError (Option String) → Except StateError (Option α)
  | .error e => .error e
  | .ok none => .ok none
  | .ok (some text) => (parse text).map some

theorem run_readParsed {α : Type} (d : Document) (parse : String → Except StateError α) :
    (readParsed d parse).run = .ask (.read d) fun reply => .done (ofText parse reply) := by
  refine congrArg (Program.ask _) (funext fun (reply : Except StateError (Option String)) => ?_)
  rcases reply with e | _ | text
  · rfl
  · rfl
  · change (ExceptT.mk (pure (parse text)) >>= fun value => pure (some value) :
      Keeping (Option α)).run = .done ((parse text).map some)
    cases parse text <;> rfl

theorem run_readParsed_bind {α β : Type} (d : Document) (parse : String → Except StateError α)
    (f : Option α → Keeping β) : (readParsed d parse >>= f).run =
      .ask (.read d) fun reply =>
        match ofText parse reply with
        | .error e => .done (.error e)
        | .ok value => (f value).run := by
  rw [ExceptT.run_bind, run_readParsed]
  refine congrArg (Program.ask _) (funext fun (reply : Except StateError (Option String)) => ?_)
  change (Program.done (ofText parse reply) >>= _) = _
  cases ofText parse reply <;> rfl

/-- What is left of taking the lock once the stored lock has been read. -/
def claimLock (holder : String) (existing : Option Lock) : Keeping Lock := do
  let now : Instant ← Documents.ask .now
  let id : String ← Documents.ask .freshId
  let lock ← ExceptT.mk (pure (Lock.claim existing now id holder (← standInHolder)))
  writeDocument .lock lock.document
  return lock

theorem acquireLock_eq (holder : String) : acquireLock holder = readLock >>= claimLock holder := rfl

/-- The lock that a holder claims. -/
def claimed (now : Instant) (id holder process other : String) : Lock :=
  .new now id (if holder = "" then madeUpHolder process other else holder)

theorem run_claimLock (holder : String) (existing : Option Lock) :
    (claimLock holder existing).run =
      .ask .now fun (now : Instant) => .ask .freshId fun (id : String) =>
        .ask .processName fun (process : String) => .ask .freshId fun (other : String) =>
          match Lock.ensureFree existing now with
          | .error e => .done (.error e)
          | .ok _ =>
            .ask (.write .lock (claimed now id holder process other).document)
              fun (reply : Except StateError Unit) =>
                .done (reply.map fun _ => claimed now id holder process other) := by
  refine congrArg (Program.ask _) (funext fun (now : Instant) => congrArg (Program.ask _)
    (funext fun (id : String) => congrArg (Program.ask _) (funext fun (process : String) =>
      congrArg (Program.ask _) (funext fun (other : String) => ?_))))
  change (ExceptT.mk (pure (Lock.claim existing now id holder (madeUpHolder process other))) >>=
    fun lock => (do writeDocument .lock lock.document; return lock : Keeping Lock)).run = _
  cases free : Lock.ensureFree existing now with
  | error e =>
    have refused : Lock.claim existing now id holder (madeUpHolder process other) = .error e := by
      rw [Lock.claim, free]
      rfl
    rw [refused]
    rfl
  | ok _ =>
    have taken : Lock.claim existing now id holder (madeUpHolder process other) =
        .ok (claimed now id holder process other) := by
      rw [Lock.claim, free]
      rfl
    rw [taken]
    refine congrArg (Program.ask _) (funext fun (reply : Except StateError Unit) => ?_)
    cases reply <;> rfl

end StoreCall

/-- The program comes to a value when nobody else takes part in its exchanges. -/
def Program.Yields {I : Interface} {η β : Type} (law : η → Exchange I → η → Prop)
    (p : Program I β) (h : η) (value : β) (h' : η) : Prop :=
  ∃ exchanges, p.Follows exchanges (.done value) ∧ History law h exchanges h'

section Yields
variable {I : Interface} {η β : Type} {law : η → Exchange I → η → Prop} {h h' : η} {value : β}

@[simp] theorem Program.yields_done {result : β} :
    (Program.done result : Program I β).Yields law h value h' ↔ value = result ∧ h' = h := by
  constructor
  · rintro ⟨exchanges, run, history⟩
    obtain ⟨rfl, same⟩ := Program.follows_done run
    cases history
    exact ⟨Program.done.inj same, rfl⟩
  · rintro ⟨rfl, rfl⟩
    exact ⟨[], .rest _, .rest _⟩

theorem Program.yields_ask {r : I.Request} {next : I.Reply r → Program I β} :
    (Program.ask r next).Yields law h value h' ↔
      ∃ reply mid, law h ⟨r, reply⟩ mid ∧ (next reply).Yields law mid value h' := by
  constructor
  · rintro ⟨exchanges, run, history⟩
    obtain ⟨reply, rest, rfl, onward⟩ := Program.follows_ask run
    cases history with
    | move first others => exact ⟨reply, _, first, rest, onward, others⟩
  · rintro ⟨reply, mid, first, rest, run, others⟩
    exact ⟨⟨r, reply⟩ :: rest, .ask run, .move first others⟩

end Yields

/-- The operations of a store, each answered or refused. -/
def Stores : Interface where
  Request := StoreCall
  Reply call := Except StateError call.Answer

namespace Shelf

/-- An operation is performed at one time, and nobody comes in between. -/
def Performs (time : Instant) (s : Shelf) (e : Exchange Stores) (s' : Shelf) : Prop :=
  (StoreCall.perform e.request).run.Yields (Answers time) s e.reply s'

variable {time : Instant} {s s' : Shelf} {kept : Option Lock}

theorem performs_readParsed {α : Type} {d : Document} {parse : String → Except StateError α}
    {reply : Except StateError (Option α)} :
    (StoreCall.readParsed d parse).run.Yields (Answers time) s reply s' ↔
      reply = StoreCall.ofText parse (.ok (s.text d)) ∧ s' = s := by
  rw [StoreCall.run_readParsed]
  refine Program.yields_ask.trans ⟨?_, ?_⟩
  · rintro ⟨read, mid, answer, yields⟩
    obtain ⟨rfl, rfl⟩ := answers_read.1 answer
    exact Program.yields_done.1 yields
  · rintro ⟨rfl, rfl⟩
    exact ⟨_, _, .read .., Program.yields_done.2 ⟨rfl, rfl⟩⟩

theorem performs_load {reply : Except StateError (Option ClusterState)} :
    Performs time s ⟨.load, reply⟩ s' ↔
      reply = StoreCall.ofText ClusterState.parse (.ok (s.text .state)) ∧ s' = s :=
  performs_readParsed

theorem Keeps.ofText (h : s.Keeps kept) :
    StoreCall.ofText Lock.parse (.ok (s.text .lock)) = .ok kept := by
  rw [h.text]
  cases kept with
  | none => rfl
  | some l =>
    have parsed := Lock.parse_document (h.storable l rfl).1 (h.storable l rfl).2
    simp [StoreCall.ofText, parsed, Except.map]

theorem performs_lockInfo (h : s.Keeps kept) {reply : Except StateError (Option Lock)} :
    Performs time s ⟨.lockInfo, reply⟩ s' ↔ reply = .ok kept ∧ s' = s := by
  rw [← h.ofText]
  exact performs_readParsed

/-- An operation that is one call on a document. -/
theorem performs_ask {call : DocumentCall} {reply : call.Answer} :
    (Documents.ask call).Yields (Answers time) s reply s' ↔ Answers time s ⟨call, reply⟩ s' := by
  refine Program.yields_ask.trans ⟨?_, fun answered => ⟨reply, s', answered, ?_⟩⟩
  · rintro ⟨answer, mid, answered, yields⟩
    obtain ⟨rfl, rfl⟩ := Program.yields_done.1 yields
    exact answered
  · exact Program.yields_done.2 ⟨rfl, rfl⟩

theorem performs_save {state : ClusterState} {reply : Except StateError Unit} :
    Performs time s ⟨.save state, reply⟩ s' ↔
      reply = .ok () ∧ s' = s.put .state (some state.document) :=
  performs_ask.trans answers_write

theorem performs_hasState {reply : Except StateError Bool} :
    Performs time s ⟨.hasState, reply⟩ s' ↔
      reply = .ok (s.text .state).isSome ∧ s' = s :=
  performs_ask.trans answers_contains

theorem performs_forceUnlock {reply : Except StateError Unit} :
    Performs time s ⟨.forceUnlock, reply⟩ s' ↔ reply = .ok () ∧ s' = s.put .lock none :=
  performs_ask.trans answers_remove

theorem yields_readLock_bind {β : Type} (h : s.Keeps kept) {f : Option Lock → Keeping β}
    {value : Except StateError β} :
    (StoreCall.readLock >>= f).run.Yields (Answers time) s value s' ↔
      (f kept).run.Yields (Answers time) s value s' := by
  rw [StoreCall.readLock, StoreCall.run_readParsed_bind]
  refine Program.yields_ask.trans ⟨?_, fun yields => ⟨.ok (s.text .lock), s, .read .., ?_⟩⟩
  · rintro ⟨read, mid, answer, yields⟩
    obtain ⟨rfl, rfl⟩ := answers_read.1 answer
    rwa [h.ofText] at yields
  · rwa [h.ofText]

/-- Giving the lock back removes the stored lock if it carries the identifier, and changes
nothing otherwise. -/
theorem performs_release (h : s.Keeps kept) {id : String} {reply : Except StateError Unit} :
    Performs time s ⟨.release id, reply⟩ s' ↔
      reply = .ok () ∧ s' = if kept.map Lock.id = some id then s.put .lock none else s := by
  refine (yields_readLock_bind h).trans ?_
  cases kept with
  | none => exact Program.yields_done
  | some l =>
    by_cases own : l.id = id
    · simp only [Option.map_some, own, if_true]
      exact performs_ask.trans answers_remove
    · simp only [Option.map_some, own, Option.some.injEq, if_false]
      exact Program.yields_done

/-- Taking the lock succeeds if it is free. -/
theorem performs_acquire (h : s.Keeps kept) {holder : String} {reply : Except StateError Lock} :
    Performs time s ⟨.acquire holder, reply⟩ s' ↔
      Shown time ∧ ∃ id process other, id ∉ s.given ∧ other ∉ id :: s.given ∧
        match Lock.ensureFree kept time with
        | .error e => reply = .error e ∧ s' = { s with given := other :: id :: s.given }
        | .ok _ => reply = .ok (StoreCall.claimed time id holder process other) ∧
            s' = { s with given := other :: id :: s.given }.put .lock
              (some (StoreCall.claimed time id holder process other).document) := by
  have run : (StoreCall.acquireLock holder).run.Yields (Answers time) s reply s' ↔
      (StoreCall.claimLock holder kept).run.Yields (Answers time) s reply s' :=
    yields_readLock_bind h
  refine run.trans ?_
  rw [StoreCall.run_claimLock]
  constructor
  · intro yields
    obtain ⟨now, mid, asked, dated⟩ := Program.yields_ask.1 yields
    obtain ⟨shown, rfl, rfl⟩ := answers_now.1 asked
    obtain ⟨id, mid, given, numbered⟩ := Program.yields_ask.1 dated
    obtain ⟨fresh, rfl⟩ := answers_freshId.1 given
    obtain ⟨process, mid, named, signed⟩ := Program.yields_ask.1 numbered
    obtain rfl := answers_processName.1 named
    obtain ⟨other, mid, given', claiming⟩ := Program.yields_ask.1 signed
    obtain ⟨fresh', rfl⟩ := answers_freshId.1 given'
    refine ⟨shown, id, process, other, fresh, fresh', ?_⟩
    cases free : Lock.ensureFree kept now with
    | error e =>
      rw [free] at claiming
      exact Program.yields_done.1 claiming
    | ok _ =>
      rw [free] at claiming
      obtain ⟨answer, mid, written, finished⟩ := Program.yields_ask.1 claiming
      obtain ⟨rfl, rfl⟩ := answers_write.1 written
      exact Program.yields_done.1 finished
  · rintro ⟨shown, id, process, other, fresh, fresh', outcome⟩
    refine Program.yields_ask.2 ⟨time, s, .now s shown, ?_⟩
    refine Program.yields_ask.2 ⟨id, _, .freshId fresh, ?_⟩
    refine Program.yields_ask.2 ⟨process, _, .processName .., ?_⟩
    refine Program.yields_ask.2 ⟨other, _, .freshId fresh', ?_⟩
    cases free : Lock.ensureFree kept time with
    | error e =>
      rw [free] at outcome
      exact Program.yields_done.2 outcome
    | ok _ =>
      rw [free] at outcome
      obtain ⟨rfl, rfl⟩ := outcome
      exact Program.yields_ask.2 ⟨.ok (), _, .write .., Program.yields_done.2 ⟨rfl, rfl⟩⟩

theorem performs_delete {reply : Except StateError Unit} :
    Performs time s ⟨.delete, reply⟩ s' ↔
      reply = .ok () ∧ s' = (s.put .state none).put .lock none := by
  refine Program.yields_ask.trans ⟨?_, ?_⟩
  · rintro ⟨answer, mid, removed, yields⟩
    obtain ⟨rfl, rfl⟩ := answers_remove.1 removed
    exact (performs_ask.trans answers_remove).1 yields
  · intro outcome
    exact ⟨.ok (), _, .remove .., (performs_ask.trans answers_remove).2 outcome⟩

/-- What the operations of a store do to the stored lock. -/
inductive MovesLock (time : Instant) (given : List String) :
    Option Lock → Exchange Stores → Option Lock → Prop
  | taken {kept : Option Lock} {l : Lock} {holder : String}
      (free : ∀ k ∈ kept, k.isExpired time = true) (acquired : l.acquiredAt = time)
      (expires : l.expiresAt = time.addSeconds Lock.lifetime) (fresh : l.id ∉ given) :
      MovesLock time given kept ⟨.acquire holder, Except.ok l⟩ (some l)
  | refused {l : Lock} {holder : String} (held : l.isExpired time = false) :
      MovesLock time given (some l) ⟨.acquire holder, Except.error l.heldError⟩ (some l)
  | returned {l : Lock} : MovesLock time given (some l) ⟨.release l.id, Except.ok ()⟩ none
  | disowned {kept : Option Lock} {id : String} (foreign : ∀ l ∈ kept, l.id ≠ id) :
      MovesLock time given kept ⟨.release id, Except.ok ()⟩ kept
  | forced (kept : Option Lock) : MovesLock time given kept ⟨.forceUnlock, Except.ok ()⟩ none
  | deleted (kept : Option Lock) : MovesLock time given kept ⟨.delete, Except.ok ()⟩ none
  | shown (kept : Option Lock) : MovesLock time given kept ⟨.lockInfo, Except.ok kept⟩ kept
  | load (kept : Option Lock) (reply : Except StateError (Option ClusterState)) :
      MovesLock time given kept ⟨.load, reply⟩ kept
  | save (kept : Option Lock) (state : ClusterState) (reply : Except StateError Unit) :
      MovesLock time given kept ⟨.save state, reply⟩ kept
  | hasState (kept : Option Lock) (reply : Except StateError Bool) :
      MovesLock time given kept ⟨.hasState, reply⟩ kept

/-- Identifiers that were given out stay so. -/
theorem Answers.given {e : Exchange Documents} (h : Answers time s e s') : s.given ⊆ s'.given := by
  cases h with
  | freshId _ => exact List.subset_cons_self _ _
  | _ => exact List.Subset.refl _

theorem Performs.given {e : Exchange Stores} (h : Performs time s e s') : s.given ⊆ s'.given := by
  obtain ⟨exchanges, -, history⟩ := h
  induction history with
  | rest s => exact List.Subset.refl _
  | move first _ ih => exact List.Subset.trans first.given ih

/-- Every operation leaves a stored lock behind that the shelf knows, or none. -/
theorem Performs.movesLock {e : Exchange Stores} (h : s.Keeps kept) (p : Performs time s e s') :
    ∃ kept', s'.Keeps kept' ∧ MovesLock time s.given kept e kept' := by
  have given := p.given
  obtain ⟨request, reply⟩ := e
  cases request with
  | load =>
    obtain ⟨-, rfl⟩ := performs_load.1 p
    exact ⟨kept, h, .load kept reply⟩
  | save state =>
    obtain ⟨-, rfl⟩ := performs_save.1 p
    exact ⟨kept, h.mono (text_put_of_ne _ (by decide) _) given, .save kept state reply⟩
  | delete =>
    obtain ⟨rfl, rfl⟩ := performs_delete.1 p
    exact ⟨none, keeps_none (text_put ..), .deleted kept⟩
  | hasState =>
    obtain ⟨-, rfl⟩ := performs_hasState.1 p
    exact ⟨kept, h, .hasState kept reply⟩
  | acquire holder =>
    obtain ⟨shown, id, process, other, fresh, fresh', outcome⟩ := (performs_acquire h).1 p
    cases free : Lock.ensureFree kept time with
    | error e =>
      rw [free] at outcome
      obtain ⟨rfl, rfl⟩ := outcome
      obtain ⟨l, rfl, held, rfl⟩ := Lock.ensureFree_error.1 free
      exact ⟨some l, h.mono rfl given, .refused held⟩
    | ok _ =>
      rw [free] at outcome
      obtain ⟨rfl, rfl⟩ := outcome
      refine ⟨some (StoreCall.claimed time id holder process other), ⟨text_put .., ?_, ?_⟩,
        .taken (Lock.ensureFree_ok.1 free) rfl rfl fresh⟩
      · rintro l ⟨⟩
        exact shown
      · rintro l ⟨⟩
        exact List.mem_cons_of_mem _ List.mem_cons_self
  | release id =>
    obtain ⟨rfl, rfl⟩ := (performs_release h).1 p
    by_cases own : kept.map Lock.id = some id
    · obtain ⟨l, rfl, rfl⟩ := Option.map_eq_some_iff.1 own
      rw [if_pos own]
      exact ⟨none, keeps_none (text_put ..), .returned⟩
    · rw [if_neg own]
      exact ⟨kept, h, .disowned fun l stored same => own (by rw [stored, ← same]; rfl)⟩
  | forceUnlock =>
    obtain ⟨rfl, rfl⟩ := performs_forceUnlock.1 p
    exact ⟨none, keeps_none (text_put ..), .forced kept⟩
  | lockInfo =>
    obtain ⟨rfl, rfl⟩ := (performs_lockInfo h).1 p
    exact ⟨kept, h, .shown kept⟩

/-- A lock that was taken is stored, and it has an identifier of its own. -/
theorem Performs.taken {holder : String} {l : Lock} (h : s.Keeps kept)
    (p : Performs time s ⟨.acquire holder, Except.ok l⟩ s') :
    s'.Keeps (some l) ∧ (∀ k ∈ kept, k.isExpired time = true) ∧ l.acquiredAt = time ∧
      l.id ∉ s.given := by
  obtain ⟨kept', h', moved⟩ := p.movesLock h
  cases moved with
  | taken free acquired _ fresh => exact ⟨h', free, acquired, fresh⟩

/-- Only a save and a delete change the stored state. -/
theorem Performs.text_state {e : Exchange Stores} (h : s.Keeps kept) (p : Performs time s e s')
    (saves : ∀ state, e.request ≠ .save state) (deletes : e.request ≠ .delete) :
    s'.text .state = s.text .state := by
  obtain ⟨request, reply⟩ := e
  cases request with
  | load => rw [(performs_load.1 p).2]
  | save state => exact absurd rfl (saves state)
  | delete => exact absurd rfl deletes
  | hasState => rw [(performs_hasState.1 p).2]
  | acquire holder =>
    obtain ⟨-, id, process, other, -, -, outcome⟩ := (performs_acquire h).1 p
    cases free : Lock.ensureFree kept time with
    | error e =>
      rw [free] at outcome
      rw [outcome.2]
    | ok _ =>
      rw [free] at outcome
      rw [outcome.2, text_put_of_ne _ (by decide)]
  | release id =>
    rw [((performs_release h).1 p).2]
    split
    · rw [text_put_of_ne _ (by decide)]
    · rfl
  | forceUnlock => rw [(performs_forceUnlock.1 p).2, text_put_of_ne _ (by decide)]
  | lockInfo => rw [((performs_lockInfo h).1 p).2]

end Shelf

end HostRoster
