import HostRoster.Proofs.Operations

/-!
# Taking the lock at the same time

Taking the lock reads the stored lock and later writes another. Clients that take it at
the same time may all have read before any of them wrote, and then each of them gets it.
That is the only way: while no lock expires, a client gets the lock exactly if a free lock
was stored and nobody had written when it read.
-/
namespace HostRoster

namespace Program
variable {I : Interface} {β : Type}

/-- Every exchange of a run is its first one or comes after it. -/
theorem follows_mem {r : I.Request} {next : I.Reply r → Program I β} {exchanges : List (Exchange I)}
    {q : Program I β} {e : Exchange I} (run : (Program.ask r next).Follows exchanges q)
    (mem : e ∈ exchanges) : ∃ reply rest, exchanges = ⟨r, reply⟩ :: rest ∧
      (next reply).Follows rest q ∧ (e = ⟨r, reply⟩ ∨ e ∈ rest) := by
  cases run with
  | rest => cases mem
  | ask onward => exact ⟨_, _, rfl, onward, List.mem_cons.1 mem⟩

end Program

namespace StoreCall

variable {holder : String} {exchanges : List (Exchange Documents)}

/-- A client that took the lock or was refused has read the stored lock first. It was refused by
a held lock only, and wrote the one it took. -/
theorem acquireLock_ends {result : Except StateError Lock}
    (run : (acquireLock holder).run.Follows exchanges (.done result)) :
    ∃ read rest, exchanges = ⟨.read .lock, read⟩ :: rest ∧
      match ofText Lock.parse read with
      | .error e => result = .error e
      | .ok found => ∃ now : Instant, ⟨.now, now⟩ ∈ rest ∧
        match Lock.ensureFree found now with
        | .error e => result = .error e
        | .ok _ => ∃ l : Lock, ∃ reply : Except StateError Unit,
          ⟨.write .lock l.document, reply⟩ ∈ rest ∧ result = reply.map fun _ => l := by
  rw [acquireLock_eq, readLock, run_readParsed_bind] at run
  obtain ⟨read, rest, rfl, informed⟩ := Program.follows_ask run
  refine ⟨read, rest, rfl, ?_⟩
  cases reads : ofText Lock.parse read with
  | error e =>
    rw [reads] at informed
    obtain ⟨-, same⟩ := Program.follows_done informed
    exact Program.done.inj same
  | ok found =>
    rw [reads] at informed
    simp only [run_claimLock] at informed
    obtain ⟨now, _, rfl, dated⟩ := Program.follows_ask informed
    obtain ⟨id, _, rfl, numbered⟩ := Program.follows_ask dated
    obtain ⟨process, _, rfl, signed⟩ := Program.follows_ask numbered
    obtain ⟨other, last, rfl, claiming⟩ := Program.follows_ask signed
    refine ⟨now, List.mem_cons_self, ?_⟩
    cases free : Lock.ensureFree found now with
    | error e =>
      rw [free] at claiming
      obtain ⟨-, same⟩ := Program.follows_done claiming
      exact Program.done.inj same
    | ok _ =>
      rw [free] at claiming
      obtain ⟨reply, _, rfl, written⟩ := Program.follows_ask claiming
      obtain ⟨-, same⟩ := Program.follows_done written
      exact ⟨_, reply, by simp, Program.done.inj same⟩

/-- While it takes the lock a client asks for nothing but the stored lock, the time and names,
until it writes a lock, and with that it has taken it. -/
theorem acquireLock_exchange {q : Program Documents (Except StateError Lock)} {e : Exchange Documents}
    (run : (acquireLock holder).run.Follows exchanges q) (mem : e ∈ exchanges) :
    (e.request = .read .lock ∨ e.request = .now ∨ e.request = .freshId ∨
      e.request = .processName) ∨
    ∃ (now : Instant) (l : Lock) (reply : Except StateError Unit), ⟨.now, now⟩ ∈ exchanges ∧
      l.acquiredAt = now ∧ l.expiresAt = now.addSeconds Lock.lifetime ∧
      e = ⟨.write .lock l.document, reply⟩ ∧ q = .done (reply.map fun _ => l) := by
  rw [acquireLock_eq, readLock, run_readParsed_bind] at run
  obtain ⟨read, rest, rfl, informed, rfl | mem⟩ := Program.follows_mem run mem
  · exact .inl (.inl rfl)
  cases reads : ofText Lock.parse read with
  | error e =>
    rw [reads] at informed
    obtain ⟨rfl, -⟩ := Program.follows_done informed
    cases mem
  | ok found =>
    rw [reads] at informed
    simp only [run_claimLock] at informed
    obtain ⟨now, _, rfl, dated, rfl | mem⟩ := Program.follows_mem informed mem
    · exact .inl (.inr (.inl rfl))
    obtain ⟨id, _, rfl, numbered, rfl | mem⟩ := Program.follows_mem dated mem
    · exact .inl (.inr (.inr (.inl rfl)))
    obtain ⟨process, _, rfl, signed, rfl | mem⟩ := Program.follows_mem numbered mem
    · exact .inl (.inr (.inr (.inr rfl)))
    obtain ⟨other, last, rfl, claiming, rfl | mem⟩ := Program.follows_mem signed mem
    · exact .inl (.inr (.inr (.inl rfl)))
    cases free : Lock.ensureFree found now with
    | error e =>
      rw [free] at claiming
      obtain ⟨rfl, -⟩ := Program.follows_done claiming
      cases mem
    | ok _ =>
      rw [free] at claiming
      obtain ⟨reply, _, rfl, written, rfl | mem⟩ := Program.follows_mem claiming mem
      · obtain ⟨-, rfl⟩ := Program.follows_done written
        exact .inr ⟨now, _, reply, by simp, rfl, rfl, rfl, rfl⟩
      · obtain ⟨rfl, -⟩ := Program.follows_done written
        cases mem

/-- The exchanges of a client that finds the lock free and takes it. -/
def takingExchanges (read : Option String) (now : Instant) (id process other : String) (l : Lock) :
    List (Exchange Documents) :=
  [⟨.read .lock, Except.ok read⟩, ⟨.now, now⟩, ⟨.freshId, id⟩, ⟨.processName, process⟩,
    ⟨.freshId, other⟩, ⟨.write .lock l.document, Except.ok ()⟩]

theorem acquireLock_takes {read : Option String} {found : Option Lock} {now : Instant}
    {id process other : String} (reads : ofText Lock.parse (.ok read) = .ok found)
    (free : Lock.ensureFree found now = .ok ()) :
    (acquireLock holder).run.Follows
      (takingExchanges read now id process other (claimed now id holder process other))
      (.done (.ok (claimed now id holder process other))) := by
  rw [acquireLock_eq, readLock, run_readParsed_bind]
  refine .ask ?_
  rw [reads]
  simp only [run_claimLock]
  refine .ask (.ask (.ask (.ask ?_)))
  rw [free]
  exact .ask (.rest _)

end StoreCall

/-- The clients all take the lock. -/
def takers {ι : Type} (holder : ι → String) (i : ι) : Program Documents (Except StateError Lock) :=
  (StoreCall.acquireLock (holder i)).run

/-- A turn in which the lock is written. -/
def Turn.WritesLock {ι : Type} (turn : Turn ι Documents) : Prop :=
  ∃ text, turn.exchange.request = .write .lock text

/-- The stored lock is the first one until somebody writes, and then one that still holds. -/
def StoredLock {ι : Type} (existing : Option Lock) (now : Instant) (before : List (Turn ι Documents))
    (s : Shelf) : Prop :=
  ∃ stored, StoreCall.ofText Lock.parse (.ok (s.text .lock)) = .ok stored ∧
    (stored = existing ∧ (∀ turn ∈ before, ¬turn.WritesLock) ∨
      (∃ l, stored = some l ∧ l.isExpired now = false) ∧ ∃ turn ∈ before, turn.WritesLock)

section Takers
variable {ι : Type} {holder : ι → String} {start now : Instant} {s last : Shelf}
  {turns : List (Turn ι Documents)} {rests : ι → Program Documents (Except StateError Lock)}
  {existing : Option Lock}

/-- A turn that does not write leaves the stored lock as it is. -/
theorem StoredLock.of_text {before : List (Turn ι Documents)} {turn : Turn ι Documents}
    {s s' : Shelf} (h : StoredLock existing now before s) (same : s'.text .lock = s.text .lock)
    (reads : ¬turn.WritesLock) : StoredLock existing now (before ++ [turn]) s' := by
  obtain ⟨stored, text, ⟨rfl, none_before⟩ | ⟨holds, writer, mem, wrote⟩⟩ := h
  · refine ⟨stored, same ▸ text, .inl ⟨rfl, fun other mem => ?_⟩⟩
    rcases List.mem_append.1 mem with mem | mem
    · exact none_before other mem
    · rw [List.mem_singleton.1 mem]
      exact reads
  · exact ⟨stored, same ▸ text, .inr ⟨holds, writer, List.mem_append_left _ mem, wrote⟩⟩

/-- The lock that a client writes is read back as that lock. -/
theorem ofText_written [DecidableEq ι]
    (run : Interleaves Shelf.Answers (takers holder) start s turns now last rests) {i : ι} {l : Lock}
    (dated : ⟨.now, l.acquiredAt⟩ ∈ Turn.own i turns)
    (expires : l.expiresAt = l.acquiredAt.addSeconds Lock.lifetime) :
    StoreCall.ofText Lock.parse (.ok (some l.document)) = .ok (some l) := by
  obtain ⟨⟨_, time, _⟩, mem, rfl, rfl⟩ := Turn.mem_own.1 dated
  obtain ⟨mid, next, answered, -, -⟩ := run.timeline.of_mem mem
  obtain ⟨shown, same, -⟩ := Shelf.answers_now.1 answered
  have parsed : Lock.parse l.document = .ok l :=
    Lock.parse_document (same ▸ shown.1) (by rw [expires, same]; exact shown.2)
  simp [StoreCall.ofText, parsed, Except.map]

theorem storedLock_while_taking [DecidableEq ι]
    (run : Interleaves Shelf.Answers (takers holder) start s turns now last rests)
    (stored : StoreCall.ofText Lock.parse (.ok (s.text .lock)) = .ok existing)
    (lasting : ∀ i l, rests i = .done (.ok l) → l.isExpired now = false)
    {before after : List (Turn ι Documents)} (split : turns = before ++ after) {noon : Instant}
    {mid : Shelf} (line : Timeline Shelf.Answers start s before noon mid) :
    StoredLock existing now before mid := by
  refine line.invariant (fun before _ mid => StoredLock existing now before mid)
    ⟨existing, stored, .inl ⟨rfl, by simp⟩⟩ ?_
  rintro past turn morning mid next ⟨rest, shape⟩ - h - answered
  have mem : turn ∈ turns := by simp [split, shape]
  have own : turn.exchange ∈ Turn.own turn.client turns := Turn.mem_own.2 ⟨turn, mem, rfl, rfl⟩
  obtain ⟨client, time, e⟩ := turn
  rcases StoreCall.acquireLock_exchange (run.follows client) own with quiet | writes
  · have same : next.text .lock = mid.text .lock := by
      obtain ⟨request, reply⟩ := e
      rcases quiet with rfl | rfl | rfl | rfl
      · rw [(Shelf.answers_read.1 answered).2]
      · rw [(Shelf.answers_now.1 answered).2.2]
      · rw [(Shelf.answers_freshId.1 answered).2]
      · rw [Shelf.answers_processName.1 answered]
    refine h.of_text same ?_
    rintro ⟨text, wrote⟩
    rcases quiet with quiet | quiet | quiet | quiet <;> cases quiet.symm.trans wrote
  · obtain ⟨_, l, reply, dated, rfl, expires, rfl, ended⟩ := writes
    obtain ⟨rfl, rfl⟩ := Shelf.answers_write.1 answered
    refine ⟨some l, ?_, .inr ⟨⟨l, rfl, lasting client l ended⟩, ⟨client, time, _⟩,
      List.mem_append_right _ (List.mem_singleton.2 rfl), l.document, rfl⟩⟩
    rw [Shelf.text_put]
    exact ofText_written run dated expires

/-- The lock that a client reads is free exactly if a free lock was stored in the beginning and
nobody has written. -/
theorem StoredLock.free_iff {before : List (Turn ι Documents)} {found : Option Lock} {time : Instant}
    {mid : Shelf} (h : StoredLock existing now before mid)
    (text : StoreCall.ofText Lock.parse (.ok (mid.text .lock)) = .ok found)
    (steady : ∀ k ∈ existing, k.isExpired start = true ∨ k.isExpired now = false)
    (later : time.isBefore start = false) (sooner : now.isBefore time = false) :
    (∀ k ∈ found, k.isExpired time = true) ↔
      (∀ k ∈ existing, k.isExpired start = true) ∧ ∀ turn ∈ before, ¬turn.WritesLock := by
  obtain ⟨stored, text', first⟩ := h
  obtain rfl := Except.ok.inj (text.symm.trans text')
  rcases first with ⟨rfl, none_before⟩ | ⟨⟨l, rfl, holds⟩, writer, mem, wrote⟩
  · constructor
    · intro free
      refine ⟨fun k stored => (steady k stored).resolve_right fun holds => ?_, none_before⟩
      have held := Lock.holds_earlier holds sooner
      simp [free k stored] at held
    · rintro ⟨free, -⟩ k stored
      exact Lock.expired_later (free k stored) later
  · constructor
    · intro free
      have held := Lock.holds_earlier holds sooner
      simp [held] at free
    · rintro ⟨-, none_before⟩
      exact absurd wrote (none_before writer mem)

end Takers

/-- The lock that each of two clients takes at the same instant. -/
def raceLock (client : Bool) : Lock :=
  StoreCall.claimed ⟨0, 0⟩ (cond client "3" "1") (cond client "second" "first") "process"
    (cond client "4" "2")

/-- The exchanges by which each of them takes it. -/
def raceExchanges (client : Bool) : List (Exchange Documents) :=
  StoreCall.takingExchanges none ⟨0, 0⟩ (cond client "3" "1") "process" (cond client "4" "2")
    (raceLock client)

/-- Both read, and then the first takes the lock and the second takes it too. -/
def raceTurns : List (Turn Bool Documents) :=
  ((raceExchanges false).take 1).map (⟨false, ⟨0, 0⟩, ·⟩) ++
    ((raceExchanges true).take 1).map (⟨true, ⟨0, 0⟩, ·⟩) ++
    ((raceExchanges false).drop 1).map (⟨false, ⟨0, 0⟩, ·⟩) ++
    ((raceExchanges true).drop 1).map (⟨true, ⟨0, 0⟩, ·⟩)

def raceShelf : Shelf :=
  { text := Function.update (Function.update (fun _ => none) .lock (some (raceLock false).document))
      .lock (some (raceLock true).document)
    given := ["4", "3", "2", "1"] }

theorem race : Interleaves Shelf.Answers (takers (cond · "second" "first")) ⟨0, 0⟩ {} raceTurns ⟨0, 0⟩
    raceShelf fun client => .done (.ok (raceLock client)) where
  timeline := by
    have shown : Shelf.Shown ⟨0, 0⟩ := by decide
    refine .move rfl (.read ..) (.move rfl (.read ..) ?_)
    refine .move rfl (.now _ shown) (.move rfl (.freshId (by decide)) ?_)
    refine .move rfl (.processName ..) (.move rfl (.freshId (by decide)) ?_)
    refine .move rfl (.write ..) (.move rfl (.now _ shown) ?_)
    refine .move rfl (.freshId (by decide)) (.move rfl (.processName ..) ?_)
    exact .move rfl (.freshId (by decide)) (.move rfl (.write ..) (.rest _ _))
  follows client := by
    have own : Turn.own client raceTurns = raceExchanges client := by cases client <;> rfl
    rw [own]
    exact StoreCall.acquireLock_takes rfl rfl

/-- While no lock expires, a client that came to an end got the lock exactly if a free lock was
stored in the beginning and nobody had written one when the client read. Otherwise it was refused by
the lock it read. -/
theorem taken_iff_read_before_written {ι : Type} [DecidableEq ι] {holder : ι → String}
    {start now : Instant} {s last : Shelf} {turns : List (Turn ι Documents)}
    {rests : ι → Program Documents (Except StateError Lock)} {existing : Option Lock}
    (run : Interleaves Shelf.Answers (takers holder) start s turns now last rests)
    (stored : StoreCall.ofText Lock.parse (.ok (s.text .lock)) = .ok existing)
    (steady : ∀ k ∈ existing, k.isExpired start = true ∨ k.isExpired now = false)
    (lasting : ∀ i l, rests i = .done (.ok l) → l.isExpired now = false)
    {i : ι} {result : Except StateError Lock} (finished : rests i = .done result) :
    ∃ before time reply after, turns = before ++ ⟨i, time, ⟨.read .lock, reply⟩⟩ :: after ∧
      Turn.own i before = [] ∧
      ((∃ l, result = .ok l) ↔
        (∀ k ∈ existing, k.isExpired start = true) ∧ ∀ turn ∈ before, ¬turn.WritesLock) ∧
      (∀ e, result = .error e →
        ∃ k, StoreCall.ofText Lock.parse reply = .ok (some k) ∧ e = k.heldError) := by
  have own := run.follows i
  rw [finished] at own
  obtain ⟨read, rest, shape, outcome⟩ := StoreCall.acquireLock_ends own
  obtain ⟨before, time, after, rfl, none_before⟩ := Turn.own_eq_cons shape
  refine ⟨before, time, read, after, rfl, none_before, ?_⟩
  obtain ⟨noon, mid, morning, evening⟩ := Timeline.append_iff.1 run.timeline
  have h := storedLock_while_taking run stored lasting rfl morning
  obtain ⟨found, text, -⟩ := id h
  cases evening with
  | move _ first _ =>
    obtain ⟨rfl, rfl⟩ := Shelf.answers_read.1 first
    rw [text] at outcome
    obtain ⟨dated, asked, outcome⟩ := outcome
    have law : ∀ e ∈ rest, ∃ time mid next, Shelf.Answers time mid e next ∧
        time.isBefore start = false ∧ now.isBefore time = false := by
      intro e mem
      obtain ⟨turn, taken, -, rfl⟩ := Turn.mem_own.1 (shape ▸ List.mem_cons_of_mem _ mem)
      obtain ⟨mid, next, answered, later, sooner⟩ := run.timeline.of_mem taken
      exact ⟨turn.time, mid, next, answered, later, sooner⟩
    obtain ⟨_, _, _, answered, later, sooner⟩ := law _ asked
    obtain ⟨-, rfl, -⟩ := Shelf.answers_now.1 answered
    rw [← h.free_iff text steady later sooner, ← Lock.ensureFree_ok (u := ())]
    cases free : Lock.ensureFree found dated with
    | error e =>
      rw [free] at outcome
      obtain rfl := outcome
      obtain ⟨k, rfl, -, rfl⟩ := Lock.ensureFree_error.1 free
      exact ⟨⟨nofun, nofun⟩, fun e same => ⟨k, text, (Except.error.inj same).symm⟩⟩
    | ok _ =>
      rw [free] at outcome
      obtain ⟨l, reply, wrote, rfl⟩ := outcome
      obtain ⟨_, _, _, answered, -, -⟩ := law _ wrote
      obtain ⟨rfl, -⟩ := Shelf.answers_write.1 answered
      exact ⟨⟨fun _ => rfl, fun _ => ⟨l, rfl⟩⟩, nofun⟩

theorem taken_iff_read_before_written_race : ∃ before time reply after,
    raceTurns = before ++ ⟨true, time, ⟨.read .lock, reply⟩⟩ :: after ∧
      Turn.own true before = [] ∧ ∀ turn ∈ before, ¬turn.WritesLock := by
  obtain ⟨before, time, reply, after, split, first, taken, -⟩ :=
    taken_iff_read_before_written race rfl nofun
      (fun client l same => by cases same; cases client <;> decide)
      (i := true) rfl
  exact ⟨before, time, reply, after, split, first, (taken.1 ⟨_, rfl⟩).2⟩

/-- Both clients have the lock, and neither lock is expired. -/
theorem two_hold_lock : ∃ (turns : List (Turn Bool Documents)) (last : Shelf)
    (rests : Bool → Program Documents (Except StateError Lock)) (l l' : Lock),
    Interleaves Shelf.Answers (takers (cond · "second" "first")) ⟨0, 0⟩ {} turns ⟨0, 0⟩ last rests ∧
      rests false = .done (.ok l) ∧ rests true = .done (.ok l') ∧ l.id ≠ l'.id ∧
      l.isExpired ⟨0, 0⟩ = false ∧ l'.isExpired ⟨0, 0⟩ = false :=
  ⟨raceTurns, raceShelf, _, raceLock false, raceLock true, race, rfl, rfl, by decide, rfl, rfl⟩

end HostRoster
