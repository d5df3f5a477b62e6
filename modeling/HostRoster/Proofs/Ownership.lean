import HostRoster.Proofs.Operations
import Mathlib.Data.Fintype.EquivFin
import Mathlib.Data.Finset.Dedup

/-!
# Who owns the lock

Any number of clients take the lock, give it back, look at it and force it open, each
operation in one step. What becomes of the stored lock is an invariant of the turns they
take: it changes hands only when its owner gives it back, when somebody forces it, or
after it has expired.
-/
namespace HostRoster.Shelf

/-- An operation that does not delete the record of the cluster, in one step. -/
def Tends (time : Instant) (s : Shelf) (e : Exchange Stores) (s' : Shelf) : Prop :=
  Performs time s e s' ∧ e.request ≠ .delete

/-- An operation by which no lock is given back or forced. -/
def Undisturbed (time : Instant) (s : Shelf) (e : Exchange Stores) (s' : Shelf) : Prop :=
  Tends time s e s' ∧ e.request ≠ .forceUnlock ∧ ∀ k, s.Keeps (some k) → e.request ≠ .release k.id

variable {ι : Type} {t time now : Instant} {s s' last : Shelf} {kept : Option Lock}
  {turns : List (Turn ι Stores)}

/-- A lock that is known to be stored stays one, or another takes its place. -/
theorem Keeps.of_timeline (h : s.Keeps kept) (line : Timeline Performs t s turns now last) :
    ∃ kept, last.Keeps kept := by
  induction line generalizing kept with
  | rest t s => exact ⟨kept, h⟩
  | move _ first _ ih =>
    obtain ⟨_, h', -⟩ := first.movesLock h
    exact ih h'

theorem given_of_timeline (line : Timeline Performs t s turns now last) :
    s.given ⊆ last.given := by
  induction line with
  | rest t s => exact List.Subset.refl _
  | move _ first _ ih => exact List.Subset.trans first.given ih

/-- The identifier was given out and is not that of the stored lock. -/
structure Retires (s : Shelf) (id : String) : Prop where
  given : id ∈ s.given
  gone : ∀ k, s.Keeps (some k) → k.id ≠ id

theorem Retires.step {id : String} {e : Exchange Stores} (h : s.Keeps kept)
    (retired : s.Retires id) (p : Performs time s e s') : s'.Retires id := by
  refine ⟨p.given retired.given, fun k stored => ?_⟩
  obtain ⟨kept', h', moved⟩ := p.movesLock h
  obtain rfl := h'.unique stored
  cases moved with
  | taken _ _ _ fresh =>
    rintro rfl
    exact fresh retired.given
  | refused _ => exact retired.gone k h
  | disowned _ => exact retired.gone k h
  | shown => exact retired.gone k h
  | load => exact retired.gone k h
  | save => exact retired.gone k h
  | hasState => exact retired.gone k h

/-- A lock that was given up does not come back. -/
theorem Retires.of_timeline {id : String} (h : s.Keeps kept) (retired : s.Retires id)
    (line : Timeline Performs t s turns now last) : last.Retires id := by
  induction line generalizing kept with
  | rest t s => exact retired
  | move _ first _ ih =>
    obtain ⟨_, h', -⟩ := first.movesLock h
    exact ih h' (retired.step h first)

/-- Whatever lock was stored before is given up when another is taken. -/
theorem Performs.retires {holder : String} {l k : Lock} (h : s.Keeps kept) (known : k.id ∈ s.given)
    (took : Performs time s ⟨.acquire holder, Except.ok l⟩ s') : s'.Retires k.id := by
  obtain ⟨h', -, -, fresh⟩ := took.taken h
  refine ⟨took.given known, fun other stored => ?_⟩
  obtain rfl := Option.some.inj (h'.unique stored)
  intro same
  exact fresh (same ▸ known)

theorem due_of_taken {k l : Lock} {limit : Instant} (past : k.isExpired time = true)
    (expires : l.expiresAt = time.addSeconds Lock.lifetime)
    (due : k.expiresAt.isBefore limit = false) : l.expiresAt.isBefore limit = false := by
  rw [Lock.isExpired, Instant.isBefore_iff] at past
  rw [Instant.not_isBefore_iff] at due
  have later : time.seconds < l.expiresAt.seconds := by
    simp only [expires, Instant.addSeconds, Lock.lifetime]
    omega
  rw [Instant.not_isBefore_iff]
  omega

/-- While nobody gives a lock back or forces it, the stored lock falls due no earlier than the
one before it. -/
theorem Keeps.outlasts {k : Lock} {limit : Instant} (h : s.Keeps (some k))
    (due : k.expiresAt.isBefore limit = false)
    (line : Timeline Undisturbed t s turns now last) :
    ∃ k', last.Keeps (some k') ∧ k'.expiresAt.isBefore limit = false := by
  induction line generalizing k with
  | rest t s => exact ⟨k, h, due⟩
  | @move t now s mid last turn rest _ first _ ih =>
    obtain ⟨⟨p, keepsRecord⟩, unforced, ownerKeeps⟩ := first
    obtain ⟨client, noon, e⟩ := turn
    obtain ⟨kept, h', moved⟩ := p.movesLock h
    cases moved with
    | @taken _ l _ free _ expires _ =>
      -- the next lock lives from an instant at which the one before it is past
      exact ih h' (due_of_taken (free k rfl) expires due)
    | refused _ => exact ih h' due
    | returned => exact absurd rfl (ownerKeeps k h)
    | disowned _ => exact ih h' due
    | forced => exact absurd rfl unforced
    | deleted => exact absurd rfl keepsRecord
    | shown => exact ih h' due
    | load => exact ih h' due
    | save => exact ih h' due
    | hasState => exact ih h' due

theorem exists_fresh (given : List String) : ∃ id, id ∉ given := by
  have infinite : Infinite String := .of_injective String.ofList fun _ _ => String.ofList_inj.1
  obtain ⟨id, fresh⟩ := Infinite.exists_notMem_finset given.toFinset
  exact ⟨id, by simpa using fresh⟩

/-- Taking the lock always comes to an answer. -/
theorem exists_performs_acquire (h : s.Keeps kept) (shown : Shown time) (holder : String) :
    ∃ reply s', Performs time s ⟨.acquire holder, reply⟩ s' := by
  obtain ⟨id, fresh⟩ := exists_fresh s.given
  obtain ⟨other, fresh'⟩ := exists_fresh (id :: s.given)
  cases free : Lock.ensureFree kept time with
  | error e =>
    refine ⟨.error e, { s with given := other :: id :: s.given },
      (performs_acquire h).2 ⟨shown, id, "", other, fresh, fresh', ?_⟩⟩
    rw [free]
    exact ⟨rfl, rfl⟩
  | ok _ =>
    let l := StoreCall.claimed time id holder "" other
    refine ⟨.ok l, { s with given := other :: id :: s.given }.put .lock (some l.document),
      (performs_acquire h).2 ⟨shown, id, "", other, fresh, fresh', ?_⟩⟩
    rw [free]
    exact ⟨rfl, rfl⟩

theorem isHeld_eq_false {lock : Option Lock} :
    isHeld lock now = false ↔ ∀ k ∈ lock, k.isExpired now = true := by
  cases lock <;> simp [isHeld]

/-- What may become of the stored lock in the next operation, and what lies between two
operations that take it. -/
structure Owned (s : Shelf) (kept : Option Lock) : Prop where
  /-- Taking the lock comes to an answer. -/
  answers : ∀ time holder, Shown time → ∃ reply s', Performs time s ⟨.acquire holder, reply⟩ s'
  /-- The lock can be taken if and only if none is stored or the stored one is expired. -/
  acquires : ∀ time holder reply s', Performs time s ⟨.acquire holder, reply⟩ s' →
    ((∃ l, reply = .ok l ∧ s'.Keeps (some l)) ↔ ∀ k ∈ kept, k.isExpired time = true)
  /-- A lock that is held stays as it is, and the error names its holder. -/
  refuses : ∀ time holder reply s', Performs time s ⟨.acquire holder, reply⟩ s' →
    ∀ k ∈ kept, k.isExpired time = false →
      reply = .error (.lockedByOther k.holder k.acquiredAt.withOffset) ∧
        s'.text .lock = s.text .lock
  /-- Whoever asks whether the lock is held is told so exactly while taking it is refused. -/
  tells : ∀ time holder reply s', Performs time s ⟨.acquire holder, reply⟩ s' →
    (isHeld kept time = true ↔ ∃ e, reply = .error e)
  /-- A lock disappears only when it is given back under its own identifier, or by force. -/
  disappears : ∀ time e s', Tends time s e s' → s.text .lock ≠ none → s'.text .lock = none →
    e.request = .forceUnlock ∨ ∃ k ∈ kept, e.request = .release k.id
  /-- Giving back a lock under any other identifier changes nothing. -/
  ignores : ∀ time id reply s', Performs time s ⟨.release id, reply⟩ s' →
    (∀ k ∈ kept, k.id ≠ id) → s' = s
  /-- Looking at the lock shows the stored one and changes nothing. -/
  shows : ∀ time reply s', Performs time s ⟨.lockInfo, reply⟩ s' → reply = .ok kept ∧ s' = s

theorem Keeps.owned (h : s.Keeps kept) : s.Owned kept where
  answers time holder shown := exists_performs_acquire h shown holder
  acquires time holder reply s' p := by
    obtain ⟨kept', h', moved⟩ := p.movesLock h
    cases moved with
    | taken free _ _ _ => exact ⟨fun _ => free, fun _ => ⟨_, rfl, h'⟩⟩
    | refused held =>
      refine ⟨?_, fun free => absurd (free _ rfl) (by simp [held])⟩
      rintro ⟨_, ⟨⟩, -⟩
  refuses time holder reply s' p k stored held := by
    obtain ⟨kept', h', moved⟩ := p.movesLock h
    cases moved with
    | taken free _ _ _ => exact absurd (free k stored) (by simp [held])
    | refused _ =>
      obtain rfl := Option.some.inj stored
      exact ⟨rfl, h'.text.trans h.text.symm⟩
  tells time holder reply s' p := by
    obtain ⟨kept', h', moved⟩ := p.movesLock h
    cases moved with
    | taken free _ _ _ =>
      have open_ : isHeld kept time = false := isHeld_eq_false.2 free
      simp [open_]
    | @refused k _ held =>
      have closed : isHeld (some k) time = true := by simp [isHeld, held]
      exact ⟨fun _ => ⟨_, rfl⟩, fun _ => closed⟩
  disappears time e s' p stored removed := by
    obtain ⟨p, keepsRecord⟩ := p
    obtain ⟨kept', h', moved⟩ := p.movesLock h
    have none_left : kept' = none := h'.unique (keeps_none removed)
    have one_stored : kept ≠ none := by
      rintro rfl
      exact stored h.text
    cases moved with
    | taken _ _ _ _ => cases none_left
    | refused _ => cases none_left
    | returned => exact .inr ⟨_, rfl, rfl⟩
    | disowned _ => exact absurd none_left one_stored
    | forced => exact .inl rfl
    | deleted => exact absurd rfl keepsRecord
    | shown => exact absurd none_left one_stored
    | load => exact absurd none_left one_stored
    | save => exact absurd none_left one_stored
    | hasState => exact absurd none_left one_stored
  ignores time id reply s' p foreign := by
    obtain ⟨-, same⟩ := (performs_release h).1 p
    rw [same, if_neg]
    rintro own
    obtain ⟨l, stored, rfl⟩ := Option.map_eq_some_iff.1 own
    exact foreign l stored rfl
  shows time reply s' p := (performs_lockInfo h).1 p

theorem Tends.of_timeline (line : Timeline Tends t s turns now last) :
    Timeline Performs t s turns now last :=
  line.mono fun _ _ _ _ tends => tends.1

/-- Whoever takes turns on a store that starts without a lock, and in whatever order, the stored
lock obeys its owner. Once a lock has been taken over, giving it back changes nothing; and if
nobody gives a lock back or forces it, the next is taken only after it has expired. -/
theorem lock_owned (empty : s.text .lock = none) (line : Timeline Tends t s turns now last) :
    ∃ kept, last.Keeps kept ∧ last.Owned kept ∧
      ∀ time holder l taken, Performs time last ⟨.acquire holder, Except.ok l⟩ taken →
        (∀ (between after : List (Turn ι Stores)) noon later evening holder' l' s₁ s₂ s₃,
          Timeline Tends time taken between noon s₁ →
          Performs later s₁ ⟨.acquire holder', Except.ok l'⟩ s₂ →
          Timeline Tends later s₂ after evening s₃ →
          ∀ night reply s₄, Performs night s₃ ⟨.release l.id, reply⟩ s₄ → s₄ = s₃) ∧
        (∀ (between : List (Turn ι Stores)) noon later holder' l' s₁ s₂,
          Timeline Undisturbed time taken between noon s₁ →
          Performs later s₁ ⟨.acquire holder', Except.ok l'⟩ s₂ →
          l.expiresAt.isBefore l'.acquiredAt = true) := by
  obtain ⟨kept, h⟩ := (keeps_none empty).of_timeline (Tends.of_timeline line)
  refine ⟨kept, h, h.owned, fun time holder l taken took => ?_⟩
  obtain ⟨held, -, -, -⟩ := took.taken h
  constructor
  · intro between after noon later evening holder' l' s₁ s₂ s₃ day took' dusk night reply s₄ gave
    have day := Tends.of_timeline day
    have dusk := Tends.of_timeline dusk
    obtain ⟨_, before⟩ := held.of_timeline day
    have known : l.id ∈ s₁.given := given_of_timeline day (held.known l rfl)
    have retired := (took'.retires before known).of_timeline (took'.taken before).1 dusk
    obtain ⟨stored, at_night⟩ := (took'.taken before).1.of_timeline dusk
    refine at_night.owned.ignores night l.id reply s₄ gave fun k mem => ?_
    obtain rfl := Option.mem_def.1 mem
    exact retired.gone k at_night
  · intro between noon later holder' l' s₁ s₂ day took'
    obtain ⟨k, stored, due⟩ := held.outlasts Instant.not_isBefore_self day
    obtain ⟨-, free, acquired, -⟩ := took'.taken stored
    have past := free k rfl
    rw [acquired]
    rw [Lock.isExpired, Instant.isBefore_iff] at past
    rw [Instant.not_isBefore_iff] at due
    rw [Instant.isBefore_iff]
    omega

/-- The lock of a first holder. -/
def firstLock : Lock := StoreCall.claimed ⟨0, 0⟩ "1" "first" "process" "2"

def afterFirstLock : Shelf :=
  ({ given := ["2", "1"] } : Shelf).put .lock (some firstLock.document)

/-- The shelf when a second holder has asked for the lock and has been refused. -/
def afterRefusal : Shelf := { afterFirstLock with given := ["4", "3", "2", "1"] }

/-- The lock of the second holder, who takes it over. -/
def secondLock : Lock := StoreCall.claimed ⟨301, 0⟩ "5" "second" "process" "6"

def afterSecondLock : Shelf :=
  ({ afterRefusal with given := ["6", "5", "4", "3", "2", "1"] } : Shelf).put .lock
    (some secondLock.document)

/-- A holder who is refused at the instant at which the lock falls due, takes it over a second later,
and still has it when the first holder gives its own back. -/
def takeover : List (Turn Bool Stores) :=
  [⟨false, ⟨0, 0⟩, ⟨.acquire "first", Except.ok firstLock⟩⟩,
    ⟨true, ⟨300, 0⟩, ⟨.acquire "second", Except.error firstLock.heldError⟩⟩,
    ⟨true, ⟨301, 0⟩, ⟨.acquire "second", Except.ok secondLock⟩⟩,
    ⟨false, ⟨302, 0⟩, ⟨.release firstLock.id, Except.ok ()⟩⟩]

theorem lock_owned_first : afterFirstLock.Keeps (some firstLock) ∧
    afterFirstLock.Owned (some firstLock) ∧
    Timeline Tends ⟨0, 0⟩ {} takeover ⟨302, 0⟩ afterSecondLock ∧
    afterSecondLock.Keeps (some secondLock) ∧ afterSecondLock.Owned (some secondLock) ∧
    firstLock.expiresAt.isBefore secondLock.acquiredAt = true ∧
    ∀ reply s, Performs ⟨302, 0⟩ afterSecondLock ⟨.release firstLock.id, reply⟩ s →
      s = afterSecondLock := by
  have took : Performs ⟨0, 0⟩ {} ⟨.acquire "first", Except.ok firstLock⟩ afterFirstLock :=
    (performs_acquire (keeps_none rfl)).2
      ⟨by decide, "1", "process", "2", by decide, by decide, rfl, rfl⟩
  have first : afterFirstLock.Keeps (some firstLock) := (took.taken (keeps_none rfl)).1
  have refused : Performs ⟨300, 0⟩ afterFirstLock
      ⟨.acquire "second", Except.error firstLock.heldError⟩ afterRefusal :=
    (performs_acquire first).2 ⟨by decide, "3", "process", "4", by decide, by decide, rfl, rfl⟩
  have still : afterRefusal.Keeps (some firstLock) := first.mono rfl (by decide)
  have took' : Performs ⟨301, 0⟩ afterRefusal ⟨.acquire "second", Except.ok secondLock⟩
      afterSecondLock :=
    (performs_acquire still).2 ⟨by decide, "5", "process", "6", by decide, by decide, rfl, rfl⟩
  have second : afterSecondLock.Keeps (some secondLock) := (took'.taken still).1
  have gave : Performs ⟨302, 0⟩ afterSecondLock ⟨.release firstLock.id, Except.ok ()⟩
      afterSecondLock := (performs_release second).2 ⟨rfl, rfl⟩
  have line : Timeline Tends ⟨0, 0⟩ {} takeover ⟨302, 0⟩ afterSecondLock :=
    .move rfl ⟨took, nofun⟩ (.move rfl ⟨refused, nofun⟩ (.move rfl ⟨took', nofun⟩
      (.move rfl ⟨gave, nofun⟩ (.rest _ _))))
  have start : Timeline Tends ⟨0, 0⟩ {}
      [⟨false, ⟨0, 0⟩, ⟨.acquire "first", Except.ok firstLock⟩⟩] ⟨0, 0⟩ afterFirstLock :=
    .move rfl ⟨took, nofun⟩ (.rest _ _)
  have nothing : Timeline Tends ⟨0, 0⟩ {} ([] : List (Turn Bool Stores)) ⟨0, 0⟩ {} := .rest _ _
  obtain ⟨kept, h, owned, -⟩ := lock_owned rfl start
  obtain ⟨kept', h', owned', -⟩ := lock_owned rfl line
  obtain rfl := h.unique first
  obtain rfl := h'.unique second
  -- the first lock is taken from the empty shelf, so the next two facts are about that one
  obtain ⟨-, -, -, onward⟩ := lock_owned rfl nothing
  obtain ⟨late, past⟩ := onward ⟨0, 0⟩ "first" firstLock afterFirstLock took
  have waits : Timeline Undisturbed ⟨0, 0⟩ afterFirstLock
      [⟨true, ⟨300, 0⟩, ⟨.acquire "second", Except.error firstLock.heldError⟩⟩] ⟨300, 0⟩
      afterRefusal :=
    .move rfl ⟨⟨refused, nofun⟩, nofun, fun _ _ => nofun⟩ (.rest _ _)
  refine ⟨h, owned, line, h', owned', past _ _ _ _ _ _ _ waits took', fun reply s gave => ?_⟩
  exact late _ [] _ _ _ _ _ _ _ _ (waits.mono fun _ _ _ _ calm => calm.1) took' (.rest _ _) _ _ _
    gave

end HostRoster.Shelf
