import HostRoster.Proofs.Watching
import Mathlib.Algebra.Order.BigOperators.Group.List
import Mathlib.Algebra.Order.Floor.Div

/-!
# Waiting for an operation

Waiting goes on, poll by poll, until the operation is done, a poll fails or the time is over.
Nothing has to count the polls. Each of them takes the time between two polls at least, so there
are no more of them than the time holds, and the one that is under way when the time is over is
the last. Here the deliveries are an endless stream, and each takes the time that it takes.
-/
namespace HostRoster

namespace ServiceClient

/-- Once around the loop, which then goes on with `onward`. -/
def round (c : ServiceClient) (cluster : String)
    (onward : ℕ → Operation → Program Network (Except ApiError Operation))
    (waited : ℕ) (o : Operation) : Program Network (Except ApiError Operation) :=
  if o.done then return finished o
  else if c.operationTimeout ≤ waited then return .error (.operationTimeout o.id (waited / 1000))
  else do
    Network.wait c.pollInterval
    match ← (fetch Operation.ofJson? (c.pollRequest o) cluster).timed with
    | (.error e, _) => return .error e
    | (.ok o, took) => onward (waited + c.pollInterval + took) o

section Loop

variable {c : ServiceClient} {cluster : String} {polls waited : ℕ} {o : Operation}
  {loop : ℕ → Operation → Program Network (Except ApiError Operation)}

theorem watch_succ : c.watch cluster (polls + 1) = c.round cluster (c.watch cluster polls) := rfl

theorem watch_zero (late : c.operationTimeout ≤ waited) :
    c.watch cluster 0 waited o = c.round cluster loop waited o := by
  unfold watch round
  rw [if_pos late, if_pos late]

/-- The loop goes on only at a later time. -/
theorem round_congr {onward : ℕ → Operation → Program Network (Except ApiError Operation)}
    (same : waited < c.operationTimeout → ∀ more o,
      loop (waited + c.pollInterval + more) o = onward (waited + c.pollInterval + more) o) :
    c.round cluster loop waited o = c.round cluster onward waited o := by
  unfold round
  by_cases late : c.operationTimeout ≤ waited
  · rw [if_pos late, if_pos late]
  · simp only [same (Nat.lt_of_not_le late)]

/-- While there is time, polls that fill it are one at least, and the others fill what it leaves. -/
theorem exists_polls_left (more : ℕ) (early : waited < c.operationTimeout)
    (enough : c.operationTimeout ≤ waited + polls * c.pollInterval) :
    ∃ left, polls = left + 1 ∧
      c.operationTimeout ≤ waited + c.pollInterval + more + left * c.pollInterval := by
  cases polls with
  | zero => omega
  | succ left =>
    rw [Nat.add_mul] at enough
    exact ⟨left, rfl, by omega⟩

/-- Polls that fill the time are enough for going around the loop ever so often. By induction on
their number: while there is time, the one that is made takes its share of it. -/
theorem watch_eq_loops (loops : ℕ → ℕ → Operation → Program Network (Except ApiError Operation))
    (around : ∀ n, loops (n + 1) = c.round cluster (loops n))
    (enough : c.operationTimeout ≤ waited + polls * c.pollInterval) :
    c.watch cluster polls waited o = loops (polls + 1) waited o := by
  induction polls generalizing waited o with
  | zero => rw [around, watch_zero (by simpa using enough)]
  | succ polls ih =>
    rw [watch_succ, around]
    refine round_congr fun early more o => ?_
    obtain ⟨left, same, later⟩ := exists_polls_left more early enough
    cases same
    exact ih later

/-- The polls that the time holds are those that fill it. -/
theorem ceilDiv_le_iff (positive : 0 < c.pollInterval) :
    c.operationTimeout ⌈/⌉ c.pollInterval ≤ polls ↔
      c.operationTimeout ≤ polls * c.pollInterval := by
  rw [Nat.mul_comm]
  exact ceilDiv_le_iff_le_mul positive

theorem pollCount_eq (positive : 0 < c.pollInterval) :
    c.pollCount = c.operationTimeout ⌈/⌉ c.pollInterval := by
  rw [pollCount, if_neg positive.ne', Nat.ceilDiv_eq_add_pred_div]

theorem le_pollCount_mul (positive : 0 < c.pollInterval) :
    c.operationTimeout ≤ c.pollCount * c.pollInterval :=
  (ceilDiv_le_iff positive).1 (pollCount_eq positive).ge

/-- There is one loop without a limit, and watching for all polls that there is time for is it. -/
theorem round_eq_iff (positive : 0 < c.pollInterval) :
    c.round cluster loop = loop ↔ loop = c.watch cluster c.pollCount := by
  have enough (waited : ℕ) : c.operationTimeout ≤ waited + c.pollCount * c.pollInterval :=
    (le_pollCount_mul positive).trans (Nat.le_add_left ..)
  constructor
  · intro around
    funext waited o
    exact (watch_eq_loops (fun _ => loop) (fun _ => around.symm) (enough waited)).symm
  · rintro rfl
    funext waited o
    exact (watch_eq_loops (c.watch cluster) (fun _ => watch_succ) (enough waited)).symm

end Loop

/-- One poll, whose first request gets the delivery of that number. It is sent again after a
transient delivery, but not after a third one. -/
structure Poll (responses : ℕ → Delivery) (given : ℕ) where
  /-- How often it is sent again. -/
  again : ℕ
  few : again ≤ 2
  transient : ∀ k < again, Transient (responses (given + k))
  tired : Transient (responses (given + again)) → again = 2

namespace Poll
variable {responses : ℕ → Delivery} {given : ℕ}

/-- The time of the requests of a poll and of the waits between them. -/
def time (p : Poll responses given) : ℕ :=
  (retryWaits.take p.again).sum + tookFrom responses given (p.again + 1)

/-- What a poll is told by the response that is its last. -/
def told (p : Poll responses given) (cluster : String) : Except ApiError Operation :=
  accept cluster (responses (given + p.again)).outcome >>= decode Operation.ofJson?

theorem time_le (p : Poll responses given) {bound : ℕ} (brief : ∀ n, (responses n).took ≤ bound) :
    p.time ≤ 3000 + 3 * bound := by
  have all : retryWaits.sum = 3000 := rfl
  have waits : (retryWaits.take p.again).sum ≤ retryWaits.sum :=
    (List.take_sublist ..).sum_le_sum fun _ _ => Nat.zero_le _
  have requests := tookFrom_le brief given (p.again + 1)
  have few : (p.again + 1) * bound ≤ 3 * bound := Nat.mul_le_mul_right bound (Nat.succ_le_succ p.few)
  rw [time]
  omega

end Poll

/-- The calls of a poll that is sent again so many times. -/
def pollCalls (c : ServiceClient) (o : Operation) (again : ℕ) : List Network.Request :=
  .wait c.pollInterval :: .send (c.pollRequest o) ::
    (retryWaits.take again).flatMap fun ms => [.wait ms, .send (c.pollRequest o)]

section Polling

variable (request : HttpRequest) (cluster : String) (responses : ℕ → Delivery)

/-- A poll is made of the deliveries that come next. -/
theorem exists_poll (elapsed given : ℕ) :
    ∃ p : Poll responses given,
      (answering responses).run none (fetch Operation.ofJson? request cluster).timed elapsed given =
        ⟨some (p.told cluster, p.time), given + p.again + 1, elapsed + p.time,
          .send request :: (retryWaits.take p.again).flatMap fun ms =>
            [.wait ms, .send request]⟩ := by
  obtain ⟨again, few, transient, tired, reads⟩ :=
    run_readWithin cluster request Operation.ofJson? responses retryWaits elapsed given
  let p : Poll responses given := ⟨again, few, transient, tired⟩
  have time : elapsed + (retryWaits.take again).sum + tookFrom responses given (again + 1) =
    elapsed + p.time := Nat.add_assoc ..
  have timed := (answering_tellsTime responses).run_timedFrom
    (fetch Operation.ofJson? request cluster) elapsed 0 given
  rw [Nat.add_zero, fetch, reads, time] at timed
  refine ⟨p, timed.trans ?_⟩
  simp only [Option.map_some, Nat.add_sub_cancel_left]
  rfl

end Polling

/-- How far waiting has come. -/
structure Wait where
  /-- How many responses have been given. -/
  given : ℕ
  elapsed : ℕ
  /-- The operation as it was told of last. -/
  latest : Operation

/-- One poll more, which is told of an operation. -/
def Wait.after (w : Wait) (c : ServiceClient) {responses : ℕ → Delivery}
    (p : Poll responses w.given) (o : Operation) : Wait where
  given := w.given + p.again + 1
  elapsed := w.elapsed + c.pollInterval + p.time
  latest := o

/-- How waiting goes on from there, poll by poll. -/
inductive Goes (c : ServiceClient) (cluster : String) (responses : ℕ → Delivery) :
    Wait → Run Network ℕ (Except ApiError Operation) → Prop
  | done {w : Wait} (done : w.latest.done = true) :
      Goes c cluster responses w ⟨some (finished w.latest), w.given, w.elapsed, []⟩
  | late {w : Wait} (pending : w.latest.done = false) (late : c.operationTimeout ≤ w.elapsed) :
      Goes c cluster responses w
        ⟨some (.error (.operationTimeout w.latest.id (w.elapsed / 1000))), w.given, w.elapsed, []⟩
  | failed {w : Wait} (pending : w.latest.done = false) (early : w.elapsed < c.operationTimeout)
      (p : Poll responses w.given) {e : ApiError} (failed : p.told cluster = .error e) :
      Goes c cluster responses w
        ⟨some (.error e), w.given + p.again + 1, w.elapsed + c.pollInterval + p.time,
          c.pollCalls w.latest p.again⟩
  | polled {w : Wait} (pending : w.latest.done = false) (early : w.elapsed < c.operationTimeout)
      (p : Poll responses w.given) {o : Operation} (told : p.told cluster = .ok o)
      {run : Run Network ℕ (Except ApiError Operation)}
      (onward : Goes c cluster responses (w.after c p o) run) :
      Goes c cluster responses w { run with asked := c.pollCalls w.latest p.again ++ run.asked }

section Waiting

variable {c : ServiceClient} {cluster : String} {responses : ℕ → Delivery} {w : Wait}
  {run : Run Network ℕ (Except ApiError Operation)}

theorem goes_of_ended {polls : ℕ} (ended : w.latest.done = false → c.operationTimeout ≤ w.elapsed) :
    Goes c cluster responses w ((answering responses).run none
      (c.watch cluster polls w.elapsed w.latest) w.elapsed w.given) := by
  unfold watch
  cases state : w.latest.done with
  | true =>
    exact .done state
  | false =>
    rw [if_neg (by simp), if_pos (ended state)]
    exact .late state (ended state)

/-- Waiting goes on like this as long as its polls fill the time. By induction on them. -/
theorem goes_of_enough {polls : ℕ}
    (enough : c.operationTimeout ≤ w.elapsed + polls * c.pollInterval) :
    Goes c cluster responses w ((answering responses).run none
      (c.watch cluster polls w.elapsed w.latest) w.elapsed w.given) := by
  induction polls generalizing w with
  | zero => exact goes_of_ended fun _ => by simpa using enough
  | succ polls ih =>
    by_cases goesOn : w.latest.done = false ∧ w.elapsed < c.operationTimeout
    · obtain ⟨pending, early⟩ := goesOn
      have pauses : (answering responses).run none (Network.wait c.pollInterval) w.elapsed w.given =
        ⟨some (), w.given, w.elapsed + c.pollInterval, [.wait c.pollInterval]⟩ := rfl
      obtain ⟨p, fetches⟩ := exists_poll (c.pollRequest w.latest) cluster responses
        (w.elapsed + c.pollInterval) w.given
      rw [watch_succ, round, if_neg (by simp [pending]), if_neg (by omega), Server.run_then pauses,
        Server.run_then fetches]
      cases told : p.told cluster with
      | error e =>
        have failed := Goes.failed pending early p told
        rw [← List.append_nil (c.pollCalls w.latest p.again)] at failed
        exact failed
      | ok o =>
        obtain ⟨left, same, later⟩ := exists_polls_left p.time early enough
        cases same
        exact .polled pending early p told (ih (w := w.after c p o) later)
    · exact goes_of_ended fun pending => Nat.le_of_not_lt fun early => goesOn ⟨pending, early⟩

/-- Only the poll that is under way when the time is over goes beyond it. -/
theorem Goes.elapsed_lt (h : Goes c cluster responses w run) {bound : ℕ}
    (brief : ∀ n, (responses n).took ≤ bound)
    (start : w.elapsed < c.operationTimeout + c.pollInterval + 3000 + 3 * bound) :
    run.elapsed < c.operationTimeout + c.pollInterval + 3000 + 3 * bound := by
  induction h with
  | done => exact start
  | late => exact start
  | failed pending early p _ =>
    have short := p.time_le brief
    simp only
    omega
  | polled pending early p _ _ ih =>
    have short := p.time_le brief
    refine ih ?_
    simp only [Wait.after]
    omega

end Waiting

/-- The operation that a delivery tells of. -/
def told? (cluster : String) (d : Delivery) : Option Operation :=
  (accept cluster d.outcome >>= decode Operation.ofJson?).toOption

/-- The operation that so many deliveries have told of last, if they have told of any. -/
def latest (cluster : String) (responses : ℕ → Delivery) (o : Operation) : ℕ → Operation
  | 0 => o
  | given + 1 => (told? cluster (responses given)).getD (latest cluster responses o given)

/-- The calls of polls from a delivery on, each for the operation that was told of last, when they
are sent again so many times. -/
def pollsFrom (c : ServiceClient) (cluster : String) (responses : ℕ → Delivery) (o : Operation) :
    ℕ → List ℕ → List Network.Request
  | _, [] => []
  | given, again :: rest => c.pollCalls (latest cluster responses o given) again ++
      pollsFrom c cluster responses o (given + again + 1) rest

/-- How waiting can end. -/
inductive Ending (c : ServiceClient) (cluster : String) (responses : ℕ → Delivery)
    (latest : Operation) (run : Run Network ℕ (Except ApiError Operation)) : Prop
  /-- The operation was told to be done. -/
  | done (done : latest.done = true) (value : run.value = some (finished latest))
  /-- The time was over. -/
  | late (pending : latest.done = false) (late : c.operationTimeout ≤ run.elapsed)
      (value : run.value = some (.error (.operationTimeout latest.id (run.elapsed / 1000))))
  /-- The last delivery was an error that cannot pass, or the third in a row that can. -/
  | failed {n : ℕ} {e : ApiError} (last : run.state = n + 1)
      (error : (accept cluster (responses n).outcome >>= decode Operation.ofJson?) = .error e)
      (tired : Transient (responses n) →
        ∃ m, n = m + 2 ∧ Transient (responses m) ∧ Transient (responses (m + 1)))
      (value : run.value = some (.error e))

section Ending

variable {c : ServiceClient} {cluster : String} {responses : ℕ → Delivery} {w : Wait}
  {o o' : Operation} {given : ℕ} {run : Run Network ℕ (Except ApiError Operation)}

theorem told?_of_transient {d : Delivery} (early : Transient d) : told? cluster d = none := by
  obtain ⟨e, failed, -⟩ : ∃ e, accept cluster d.outcome = .error e ∧ _ := transient_iff.1 early
  rw [told?, failed]
  rfl

theorem told?_of_ok {d : Delivery}
    (told : (accept cluster d.outcome >>= decode Operation.ofJson?) = .ok o) :
    told? cluster d = some o := by
  rw [told?, told]
  rfl

theorem Poll.latest_eq (p : Poll responses given) (told : p.told cluster = .ok o') :
    latest cluster responses o (given + p.again + 1) = o' := by
  rw [latest, told?_of_ok told]
  rfl

/-- What is asked are polls, no more of them than fill the time. By induction on them: one that is
made takes its share of the time. -/
theorem Goes.polls (h : Goes c cluster responses w run)
    (start : latest cluster responses o w.given = w.latest) :
    ∃ agains : List ℕ, run.asked = c.pollsFrom cluster responses o w.given agains ∧
      (∀ again ∈ agains, again ≤ 2) ∧
      ∀ n, c.operationTimeout ≤ w.elapsed + n * c.pollInterval → agains.length ≤ n := by
  induction h with
  | done => exact ⟨[], rfl, by simp, by simp⟩
  | late => exact ⟨[], rfl, by simp, by simp⟩
  | @failed w pending early p e failed =>
    refine ⟨[p.again], ?_, by simpa using p.few, fun n enough => ?_⟩
    · rw [pollsFrom, pollsFrom, start, List.append_nil]
    · obtain ⟨left, rfl, -⟩ := exists_polls_left 0 early enough
      exact Nat.succ_le_succ left.zero_le
  | @polled w pending early p o told run onward ih =>
    obtain ⟨agains, asked, few, short⟩ := ih (p.latest_eq told)
    refine ⟨p.again :: agains, ?_, List.forall_mem_cons.2 ⟨p.few, few⟩, fun n enough => ?_⟩
    · rw [pollsFrom, start, asked]
      rfl
    · obtain ⟨left, rfl, later⟩ := exists_polls_left p.time early enough
      exact Nat.succ_le_succ (short left later)

/-- By induction on the polls, with what was told of last as the operation that is waited for. -/
theorem Goes.ending (h : Goes c cluster responses w run)
    (start : latest cluster responses o w.given = w.latest) :
    Ending c cluster responses (latest cluster responses o run.state) run := by
  induction h with
  | done done => exact .done (by rw [start, done]) (by rw [start])
  | late pending late => exact .late (by rw [start, pending]) late (by rw [start])
  | @failed w pending early p e failed =>
    refine .failed rfl failed (fun last => ?_) rfl
    have two := p.tired last
    exact ⟨w.given, by rw [two], p.transient 0 (by omega), p.transient 1 (by omega)⟩
  | polled pending early p told onward ih =>
    cases ih (p.latest_eq told) with
    | done done value => exact .done done value
    | late pending late value => exact .late pending late value
    | failed last error tired value => exact .failed last error tired value

end Ending

/-- The delivery tells of an operation that goes on. -/
def TellsPending (d : Delivery) : Prop :=
  ∃ p : Legible Operation.ofJson?, d = p.delivery ∧ p.value.done = false

/-- Every answer is that the operation goes on. Before it there may be up to two transient
deliveries. -/
def StaysPending (responses : ℕ → Delivery) : Prop :=
  ∀ given, ∃ k ≤ 2, (∀ i < k, Transient (responses (given + i))) ∧
    TellsPending (responses (given + k))

/-- Waits for an operation where the deliveries are those of a stream. -/
def waiting (c : ServiceClient) (cluster : String) (o : Operation) (responses : ℕ → Delivery) :
    Run Network ℕ (Except ApiError Operation) :=
  (answering responses).run none (c.await cluster o) 0 0

/-- What waiting for an operation comes to, whatever is delivered. -/
structure Waits (c : ServiceClient) (cluster : String) (o : Operation)
    (responses : ℕ → Delivery) : Prop where
  /-- The number of polls that is allowed for never matters: what is run is the one loop that goes on
  until there is a reason to end. -/
  unlimited : ∀ loop, c.round cluster loop = loop ↔ loop = c.watch cluster c.pollCount
  /-- It ends because the operation is done, because the time is over or because a poll fails. -/
  ends : Ending c cluster responses
    (latest cluster responses o (c.waiting cluster o responses).state)
    (c.waiting cluster o responses)
  /-- What it asks are polls for the operation that was told of last, no more of them than the time
  holds, each sent again up to two times. -/
  polls : ∃ agains : List ℕ,
    (c.waiting cluster o responses).asked = c.pollsFrom cluster responses o 0 agains ∧
      agains.length ≤ c.operationTimeout ⌈/⌉ c.pollInterval ∧ ∀ again ∈ agains, again ≤ 2
  /-- The last poll ends soon after the time, as soon as its requests are answered. -/
  soon : ∀ bound, (∀ n, (responses n).took ≤ bound) → (c.waiting cluster o responses).elapsed <
    c.operationTimeout + c.pollInterval + 3000 + 3 * bound
  /-- If the operation stays pending, it times out with the operation that was told of last, and with
  a wait of at least the time that it had. -/
  timesOut : o.done = false → StaysPending responses → ∃ secs,
    (c.waiting cluster o responses).value = some (.error (.operationTimeout
      (latest cluster responses o (c.waiting cluster o responses).state).id secs)) ∧
      c.operationTimeout / 1000 ≤ secs ∧
      c.operationTimeout ≤ (c.waiting cluster o responses).elapsed ∧
      secs = (c.waiting cluster o responses).elapsed / 1000
  /-- If every delivery tells so at once, all polls that the time holds are made. -/
  steady : o.done = false → (∀ n, TellsPending (responses n)) → (∀ n, (responses n).took = 0) →
    (c.waiting cluster o responses).state = c.operationTimeout ⌈/⌉ c.pollInterval ∧
      (c.waiting cluster o responses).elapsed =
        (c.operationTimeout ⌈/⌉ c.pollInterval) * c.pollInterval

section Beginning

variable {c : ServiceClient} {cluster : String} {responses : ℕ → Delivery} {w : Wait}
  {o : Operation} {run : Run Network ℕ (Except ApiError Operation)}

theorem goes_waiting (positive : 0 < c.pollInterval) :
    Goes c cluster responses ⟨0, 0, o⟩ (c.waiting cluster o responses) := by
  refine goes_of_enough (w := ⟨0, 0, o⟩) ?_
  rw [Nat.zero_add]
  exact le_pollCount_mul positive

theorem TellsPending.told {d : Delivery} (h : TellsPending d) (cluster : String) :
    ∃ o', (accept cluster d.outcome >>= decode Operation.ofJson?) = .ok o' ∧ o'.done = false := by
  obtain ⟨p, rfl, pending⟩ := h
  exact ⟨p.value, accept_legible p, pending⟩

theorem TellsPending.not_transient {d : Delivery} (h : TellsPending d) : ¬ Transient d := by
  obtain ⟨p, rfl, -⟩ := h
  exact p.not_transient

theorem StaysPending.tells_or_transient (h : StaysPending responses) (n : ℕ) :
    TellsPending (responses n) ∨ Transient (responses n) := by
  obtain ⟨k, -, transient, tells⟩ := h n
  cases k with
  | zero => exact .inl tells
  | succ k => exact .inr (transient 0 k.succ_pos)

theorem StaysPending.latest (h : StaysPending responses) (pending : o.done = false) (n : ℕ) :
    (latest cluster responses o n).done = false := by
  induction n with
  | zero => exact pending
  | succ n ih =>
    rw [ServiceClient.latest]
    obtain tells | early := h.tells_or_transient n
    · obtain ⟨o', told, goesOn⟩ := tells.told cluster
      rw [told?_of_ok told]
      exact goesOn
    · rw [told?_of_transient early]
      exact ih

/-- An error would be transient, but no third in a row is. -/
theorem StaysPending.not_failed (h : StaysPending responses) {n : ℕ} {e : ApiError}
    (error : (accept cluster (responses n).outcome >>= decode Operation.ofJson?) = .error e)
    (tired : Transient (responses n) →
      ∃ m, n = m + 2 ∧ Transient (responses m) ∧ Transient (responses (m + 1))) : False := by
  obtain tells | early := h.tells_or_transient n
  · obtain ⟨o', told, -⟩ := tells.told cluster
    have same := error.symm.trans told
    cases same
  · obtain ⟨m, rfl, first, second⟩ := tired early
    obtain ⟨k, few, -, tells⟩ := h m
    match k, few with
    | 0, _ => exact tells.not_transient first
    | 1, _ => exact tells.not_transient second
    | 2, _ => exact tells.not_transient early

/-- By induction on the polls: each is answered at once and takes the time between two polls. -/
theorem Goes.steady (h : Goes c cluster responses w run) (pending : w.latest.done = false)
    (tells : ∀ n, TellsPending (responses n)) (atOnce : ∀ n, (responses n).took = 0) :
    ∃ n, run.state = w.given + n ∧ run.elapsed = w.elapsed + n * c.pollInterval ∧
      c.operationTimeout ≤ w.elapsed + n * c.pollInterval ∧
      ∀ m, c.operationTimeout ≤ w.elapsed + m * c.pollInterval → n ≤ m := by
  induction h with
  | done done =>
    rw [pending] at done
    cases done
  | late pending late => exact ⟨0, rfl, by simp, by simpa using late, fun m _ => m.zero_le⟩
  | failed _ early p failed =>
    obtain ⟨o', told, -⟩ := (tells _).told cluster
    have same := failed.symm.trans told
    cases same
  | @polled w _ early p o' told run onward ih =>
    have once : p.again = 0 := by
      by_contra more
      exact (tells _).not_transient (p.transient 0 (Nat.pos_of_ne_zero more))
    have waited : p.time = 0 := by
      rw [Poll.time, once, tookFrom, atOnce]
      rfl
    obtain ⟨o', told', goesOn⟩ := (tells (w.given + p.again)).told cluster
    obtain rfl := Except.ok.inj (told.symm.trans told')
    obtain ⟨n, state, elapsed, enough, least⟩ := ih goesOn
    simp only [Wait.after, once, waited] at state elapsed enough least
    have share (m : ℕ) : (m + 1) * c.pollInterval = m * c.pollInterval + c.pollInterval :=
      Nat.succ_mul ..
    refine ⟨n + 1, ?_, ?_, ?_, fun m fills => ?_⟩
    · simp only
      omega
    · simp only [share]
      omega
    · rw [share]
      omega
    · obtain ⟨left, rfl, later⟩ := exists_polls_left 0 early fills
      exact Nat.succ_le_succ (least left later)

end Beginning

/-- Waiting for an operation always ends, and no later than its time allows. -/
theorem waiting_ends {c : ServiceClient} (positive : 0 < c.pollInterval) (cluster : String)
    (o : Operation) (responses : ℕ → Delivery) : c.Waits cluster o responses := by
  have goes : Goes c cluster responses ⟨0, 0, o⟩ (c.waiting cluster o responses) :=
    goes_waiting positive
  have ends := goes.ending (o := o) rfl
  have fills : c.operationTimeout ≤
      0 + c.operationTimeout ⌈/⌉ c.pollInterval * c.pollInterval := by
    rw [Nat.zero_add]
    exact (ceilDiv_le_iff positive).1 le_rfl
  exact {
    unlimited := fun loop => round_eq_iff positive
    ends := ends
    polls := by
      obtain ⟨agains, asked, few, short⟩ := goes.polls (o := o) rfl
      exact ⟨agains, asked, short _ fills, few⟩
    soon := fun bound brief => goes.elapsed_lt brief (by simp only; omega)
    timesOut := fun pending stays => by
      cases ends with
      | done done =>
        rw [stays.latest pending] at done
        cases done
      | late _ late value => exact ⟨_, value, Nat.div_le_div_right late, late, rfl⟩
      | failed _ error tired => exact (stays.not_failed error tired).elim
    steady := fun pending tells atOnce => by
      obtain ⟨n, state, elapsed, enough, least⟩ := goes.steady pending tells atOnce
      rw [Nat.zero_add] at state elapsed enough
      obtain rfl : n = c.operationTimeout ⌈/⌉ c.pollInterval :=
        le_antisymm (least _ fills) ((ceilDiv_le_iff positive).2 enough)
      exact ⟨state, elapsed⟩ }

/-- Two polls fill three seconds when there are two seconds between polls. -/
theorem waiting_ends_pending :
    let c := { new "token" "https://service" with operationTimeout := 3000 }
    let run := c.waiting "c1" goesOn.value fun _ => goesOn.delivery
    run.value = some (.error (.operationTimeout "op" 4)) ∧ run.state = 2 := by
  intro c run
  have waits : c.Waits "c1" goesOn.value fun _ => goesOn.delivery :=
    waiting_ends (by decide) "c1" goesOn.value _
  have tells : TellsPending goesOn.delivery := ⟨goesOn, rfl, rfl⟩
  obtain ⟨state, elapsed⟩ := waits.steady rfl (fun _ => tells) fun _ => rfl
  obtain ⟨secs, value, -, -, rfl⟩ := waits.timesOut rfl fun _ => ⟨0, by simp, by simp, tells⟩
  have told : latest "c1" (fun _ => goesOn.delivery) goesOn.value 2 = goesOn.value := by
    rw [latest, told?_of_ok (accept_legible goesOn)]
    rfl
  have two : c.pollCount = 2 := by decide
  have four : 2 * c.pollInterval / 1000 = 4 := by decide
  rw [← pollCount_eq (by decide), two] at state elapsed
  rw [state, told, elapsed, four] at value
  exact ⟨value, state⟩

end ServiceClient

end HostRoster
