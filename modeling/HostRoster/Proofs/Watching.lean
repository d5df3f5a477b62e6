import HostRoster.Proofs.Readings

/-!
# Changes and the operations they start

A change is sent once. What becomes of it is what the service tells of the operation that it has
started, first in the answer to the change and then in the answers to polls, each of which asks for
the operation that was told of last. The first time the operation is told to be done decides, unless
a request fails before or there is no time left. The time runs from the answer to the change on, with
the waits and with the requests.
-/
namespace HostRoster
namespace ServiceClient

/-- How far the watching of an operation has come. -/
structure Watch where
  /-- The requests that have been sent. -/
  sent : List HttpRequest
  polls : Nat := 0
  /-- When the change was answered. -/
  answered : Nat
  /-- The time that has gone by since then. -/
  elapsed : Nat := 0
  /-- The operation as it was told of last. -/
  latest : Operation

/-- The request that asks what has become of an operation. -/
def pollRequest (c : ServiceClient) (o : Operation) : HttpRequest where
  method := .get
  url := c.operationEndpoint ++ "/operations/" ++ o.id
  query := []
  headers := [("authorization", "Bearer " ++ c.token)]
  body := none
  timeoutMs := c.requestTimeout

/-- The request for a change of the hosts of a cluster. -/
def postRequest (c : ServiceClient) (cluster verb : String) (body : Json) : HttpRequest where
  method := .post
  url := c.endpoint ++ "/" ++ c.service ++ "/v1/clusters/" ++ cluster ++ "/hosts" ++ ":" ++ verb
  query := []
  headers := [("content-type", "application/json"), ("authorization", "Bearer " ++ c.token)]
  body := some (Json.compact body)
  timeoutMs := c.requestTimeout

/-- One poll more: it is sent once for each of its deliveries, for the operation told of last. -/
def Watch.after (s : Watch) (c : ServiceClient) (p : Reading Operation.ofJson?) : Watch where
  sent := s.sent ++ List.replicate p.script.length (c.pollRequest s.latest)
  polls := s.polls + 1
  answered := s.answered
  elapsed := s.elapsed + c.pollInterval + p.time
  latest := p.value

/-- There is time for a poll. Where polls follow each other at once, their number is limited too. -/
def HasTime (c : ServiceClient) (s : Watch) : Prop :=
  s.elapsed < c.operationTimeout ∧ (c.pollInterval = 0 → s.polls < c.idlePolls)

/-- Deliveries to a change and to polls of its operation, each poll made while the operation was not
done and there was time for it. -/
inductive Watches (c : ServiceClient) (request : HttpRequest) : List Delivery → Watch → Prop
  | started (first : Legible Operation.ofJson?) :
      Watches c request [first.delivery]
        { sent := [request], answered := first.took, latest := first.value }
  | polled {seen : List Delivery} {s : Watch} (sofar : Watches c request seen s)
      (pending : s.latest.done = false) (time : c.HasTime s) (p : Reading Operation.ofJson?) :
      Watches c request (seen ++ p.script) (s.after c p)

/-- The calls that change a cluster, each with the request it sends and what its answer is read
from. -/
inductive Changes (c : ServiceClient) (cluster : String) :
    (call : Call) → HttpRequest → (Operation → call.Answer) → Prop
  | create {specs : List HostSpec} (some : specs ≠ []) :
      Changes c cluster (.create cluster specs)
        (c.postRequest cluster "batchCreate" (createBody specs)) Operation.hostNames
  | update (u : HostUpdate) :
      Changes c cluster (.update cluster u)
        (c.postRequest cluster "batchUpdate" (updateBody u)) fun _ => ()
  | delete (name : String) :
      Changes c cluster (.delete cluster name)
        (c.postRequest cluster "batchDelete" (deleteBody name)) fun _ => ()

section Watching

variable {c : ServiceClient} {cluster url : String} {body : Json} {request : HttpRequest}
  {seen left rest : List Delivery} {s : Watch} {after : Script} {o : Operation}
  {polls elapsed : Nat}

theorem Watches.polls_mul_le (h : Watches c request seen s) :
    s.polls * c.pollInterval ≤ s.elapsed := by
  induction h with
  | started first => simp
  | polled _ _ _ p ih =>
    simp only [Watch.after, Nat.add_mul, Nat.one_mul]
    omega

/-- Every poll takes a delivery, and so does the change. -/
theorem Watches.polls_lt (h : Watches c request seen s) : s.polls < seen.length := by
  induction h with
  | started first => exact Nat.one_pos
  | polled _ _ _ p ih =>
    simp only [Watch.after, Reading.script, List.length_append, List.length_singleton]
    omega

/-- A poll is made if there is time for it: the polls that are allowed for never run out before. -/
theorem Watches.hasTime_iff (h : Watches c request seen s) :
    c.HasTime s ↔ s.elapsed < c.operationTimeout ∧ s.polls < c.pollCount := by
  unfold HasTime pollCount
  refine and_congr_right fun early => ?_
  split
  next none => simp [none]
  next some =>
    refine iff_of_true (fun none => absurd none some) ?_
    have gone := h.polls_mul_le
    rw [Nat.lt_iff_add_one_le, Nat.le_div_iff_mul_le (Nat.pos_of_ne_zero some), Nat.add_mul]
    omega

theorem play_watch_done (done : o.done = true) (s : Script) :
    script.play (c.watch cluster polls elapsed o) s = (finished o, s) := by
  unfold watch
  rw [if_pos done]
  rfl

theorem play_watch_late (pending : o.done = false)
    (late : c.operationTimeout ≤ elapsed ∨ polls = 0) (s : Script) :
    script.play (c.watch cluster polls elapsed o) s =
      (.error (.operationTimeout o.id (elapsed / 1000)), s) := by
  unfold watch
  rw [if_neg (by simp [pending])]
  split
  next => rfl
  next early =>
    obtain rfl := late.resolve_left early
    rfl

/-- A poll that is made goes on with what it is told, and with the time that it has taken. -/
theorem play_watch_more {s : Script} {result : Except ApiError Operation}
    (pending : o.done = false) (early : elapsed < c.operationTimeout)
    (fetched : script.play (fetch Operation.ofJson? (c.pollRequest o) cluster)
      { s with now := s.now + c.pollInterval } = (result, after)) :
    script.play (c.watch cluster (polls + 1) elapsed o) s =
      match result with
      | .error e => (.error e, after)
      | .ok o => script.play (c.watch cluster polls
          (elapsed + c.pollInterval + (after.now - (s.now + c.pollInterval))) o) after := by
  have timed := play_timedFrom (fetch Operation.ofJson? (c.pollRequest o) cluster)
    (show { s with now := s.now + c.pollInterval }.now = s.now + c.pollInterval + 0 from rfl)
  rw [fetched] at timed
  rw [watch, if_neg (by simp [pending]), if_neg (by omega)]
  refine ((Server.play_then (play_wait c.pollInterval)).trans (Server.play_then timed)).trans ?_
  cases result <;> rfl

/-- A poll that is read goes on for as long as its reading has taken. -/
theorem play_watch_reading (pending : o.done = false) (early : elapsed < c.operationTimeout)
    (p : Reading Operation.ofJson?) (sent : List HttpRequest) (now : Nat) :
    script.play (c.watch cluster (polls + 1) elapsed o) ⟨p.script ++ rest, sent, now⟩ =
      script.play (c.watch cluster polls (elapsed + c.pollInterval + p.time) p.value)
        ⟨rest, sent ++ List.replicate p.script.length (c.pollRequest o),
          now + c.pollInterval + p.time⟩ := by
  have time : now + c.pollInterval + p.time - (now + c.pollInterval) = p.time := by omega
  have fetched : script.play (fetch Operation.ofJson? (c.pollRequest o) cluster)
    ⟨p.script ++ rest, sent, now + c.pollInterval⟩ = _ := play_fetch p ..
  refine (play_watch_more pending early fetched).trans ?_
  simp only [time]

/-- A change comes as far as its deliveries say. -/
theorem play_change (h : Watches c (c.changeRequest url body) seen s) :
    script.play (c.change cluster url body) { left := seen ++ rest } =
      script.play (c.watch cluster (c.pollCount - s.polls) s.elapsed s.latest)
        ⟨rest, s.sent, s.answered + s.elapsed⟩ := by
  induction h generalizing rest with
  | started first =>
    refine (Server.play_then (play_send first.delivery)).trans ?_
    simp only [accept_legible, Nat.zero_add]
    rfl
  | @polled seen s sofar pending time p ih =>
    obtain ⟨early, allowed⟩ := sofar.hasTime_iff.1 time
    obtain ⟨polls, count⟩ := Nat.exists_eq_add_of_lt allowed
    have now : c.pollCount - s.polls = polls + 1 := by omega
    have later : c.pollCount - (s.polls + 1) = polls := by omega
    rw [List.append_assoc, ih, now, play_watch_reading pending early]
    simp only [Watch.after, later, Nat.add_assoc]

theorem play_change_rejected {d : Delivery} {e : ApiError}
    (failed : FailsWith cluster Operation.ofJson? d e) :
    script.play (c.change cluster url body) { left := d :: rest } =
      (.error e, ⟨rest, [c.changeRequest url body], d.took⟩) := by
  refine (Server.play_then (play_send d)).trans ?_
  simp only [failsWith_iff.1 failed, Nat.zero_add]
  rfl

/-- What a request comes to is never what an operation comes to. -/
theorem FailsWith.not_operational {α : Type} {read : Json → Option α} {d : Delivery} {e : ApiError}
    (failed : FailsWith cluster read d e) :
    (∀ id code message, e ≠ .operationFailed id code message) ∧
      ∀ id secs, e ≠ .operationTimeout id secs := by
  cases failed with
  | unsent => exact ⟨by simp, by simp⟩
  | throttled => exact ⟨by simp, by simp⟩
  | refused _ status =>
    unfold statusError? at status
    split_ifs at status <;> cases status <;> exact ⟨by simp, by simp⟩
  | garbled => exact ⟨by simp, by simp⟩

theorem finished_eq_ok {o o' : Operation} : finished o = .ok o' ↔ o.error = none ∧ o' = o := by
  obtain ⟨id, done, error, metadata⟩ := o
  cases error <;> simp [finished, eq_comm]

theorem finished_eq_error {o : Operation} {e : ApiError} :
    finished o = .error e ↔ ∃ cause, o.error = some cause ∧
      e = .operationFailed o.id cause.code cause.message := by
  obtain ⟨id, done, error, metadata⟩ := o
  cases error <;> simp [finished, eq_comm]

/-- How a change can end, by its deliveries: with what result, after which requests and when. -/
inductive Course (c : ServiceClient) (cluster : String) (request : HttpRequest)
    (left : List Delivery) : Except ApiError Operation → Script → Prop
  | unanswered {d : Delivery} {e : ApiError} {after : Script}
      (failed : FailsWith cluster Operation.ofJson? d e) (asked : after.sent = [request]) :
      Course c cluster request left (.error e) after
  | done {seen rest : List Delivery} {s : Watch} (split : left = seen ++ rest)
      (watches : Watches c request seen s) (done : s.latest.done = true) :
      Course c cluster request left (finished s.latest) ⟨rest, s.sent, s.answered + s.elapsed⟩
  | late {seen rest : List Delivery} {s : Watch} (split : left = seen ++ rest)
      (watches : Watches c request seen s) (pending : s.latest.done = false)
      (late : ¬ c.HasTime s) : Course c cluster request left
        (.error (.operationTimeout s.latest.id (s.elapsed / 1000)))
        ⟨rest, s.sent, s.answered + s.elapsed⟩
  | broken {seen rest : List Delivery} {s : Watch} (split : left = seen ++ rest)
      (watches : Watches c request seen s) (pending : s.latest.done = false) (time : c.HasTime s)
      {d : Delivery} {e : ApiError} (failed : FailsWith cluster Operation.ofJson? d e)
      {k : Nat} (few : k ≤ 2) {after : Script}
      (asked : after.sent = s.sent ++ List.replicate (k + 1) (c.pollRequest s.latest)) :
      Course c cluster request left (.error e) after

theorem Course.of_ok {o : Operation} (course : Course c cluster request left (.ok o) after) :
    ∃ seen rest s, left = seen ++ rest ∧ Watches c request seen s ∧ s.latest.done = true ∧
      s.latest.error = none ∧ o = s.latest := by
  generalize outcome : Except.ok o = result at course
  cases course with
  | unanswered => cases outcome
  | done split watches done =>
    obtain ⟨fine, rfl⟩ := finished_eq_ok.1 outcome.symm
    exact ⟨_, _, _, split, watches, done, fine, rfl⟩
  | late => cases outcome
  | broken => cases outcome

theorem Course.of_operationFailed {id message : String} {code : Int}
    (course : Course c cluster request left (.error (.operationFailed id code message)) after) :
    ∃ seen rest s, left = seen ++ rest ∧ Watches c request seen s ∧ s.latest.done = true ∧
      s.latest.id = id ∧ s.latest.error = some ⟨code, message⟩ := by
  generalize outcome : Except.error (ApiError.operationFailed id code message) = result at course
  cases course with
  | unanswered failed =>
    cases outcome
    exact absurd rfl (failed.not_operational.1 id code message)
  | done split watches done =>
    obtain ⟨cause, failed, told⟩ := finished_eq_error.1 outcome.symm
    cases told
    exact ⟨_, _, _, split, watches, done, rfl, failed⟩
  | late => cases outcome
  | broken _ _ _ _ failed =>
    cases outcome
    exact absurd rfl (failed.not_operational.1 id code message)

theorem Course.of_operationTimeout {id : String} {secs : Nat}
    (course : Course c cluster request left (.error (.operationTimeout id secs)) after) :
    ∃ seen rest s, left = seen ++ rest ∧ Watches c request seen s ∧ s.latest.done = false ∧
      ¬ c.HasTime s ∧ s.latest.id = id ∧ s.elapsed / 1000 = secs := by
  generalize outcome : Except.error (ApiError.operationTimeout id secs) = result at course
  cases course with
  | unanswered failed =>
    cases outcome
    exact absurd rfl (failed.not_operational.2 id secs)
  | done split watches done =>
    obtain ⟨cause, -, told⟩ := finished_eq_error.1 outcome.symm
    cases told
  | late split watches pending late =>
    cases outcome
    exact ⟨_, _, _, split, watches, pending, late, rfl, rfl⟩
  | broken _ _ _ _ failed =>
    cases outcome
    exact absurd rfl (failed.not_operational.2 id secs)

/-- Watching ends when the operation is done or no time is left. -/
theorem course_of_ended (watches : Watches c request seen s)
    (count : s.polls + polls = c.pollCount) (split : left = seen ++ rest)
    (ended : s.latest.done = false → ¬ c.HasTime s) {result : Except ApiError Operation}
    (plays : script.play (c.watch cluster polls s.elapsed s.latest)
      ⟨rest, s.sent, s.answered + s.elapsed⟩ = (result, after)) :
    Course c cluster request left result after := by
  cases state : s.latest.done with
  | true =>
    rw [play_watch_done state] at plays
    cases plays
    exact .done split watches state
  | false =>
    have noTime := ended state
    have spent : c.operationTimeout ≤ s.elapsed ∨ polls = 0 := by
      rw [watches.hasTime_iff] at noTime
      omega
    rw [play_watch_late state spent] at plays
    cases plays
    exact .late split watches state noTime

/-- By induction on the polls that are still allowed for. -/
theorem course_of_watches (watches : Watches c request seen s)
    (count : s.polls + polls = c.pollCount) (split : left = seen ++ rest)
    {result : Except ApiError Operation}
    (plays : script.play (c.watch cluster polls s.elapsed s.latest)
      ⟨rest, s.sent, s.answered + s.elapsed⟩ = (result, after)) :
    Course c cluster request left result after := by
  induction polls generalizing seen rest s with
  | zero =>
    refine course_of_ended watches count split (fun _ time => ?_) plays
    have allowed := (watches.hasTime_iff.1 time).2
    omega
  | succ polls ih =>
    by_cases goesOn : s.latest.done = false ∧ c.HasTime s
    · obtain ⟨pending, time⟩ := goesOn
      have early := (watches.hasTime_iff.1 time).1
      cases fetched : script.play (fetch Operation.ofJson? (c.pollRequest s.latest) cluster)
          ⟨rest, s.sent, s.answered + s.elapsed + c.pollInterval⟩ with
      | mk told between =>
        cases told with
        | error e =>
          have ends := (play_watch_more pending early fetched).symm.trans plays
          cases ends
          obtain ⟨⟨k, few, asked⟩, d, failed⟩ := exists_failed_reading fetched
          exact .broken split watches pending time failed few asked
        | ok o =>
          obtain ⟨p, rest, rfl, rfl, rfl⟩ := exists_reading fetched
          rw [play_watch_reading pending early] at plays
          have count' : (s.after c p).polls + polls = c.pollCount := by
            simp only [Watch.after]
            omega
          have split' : left = (seen ++ p.script) ++ rest := by rw [split, List.append_assoc]
          refine ih (watches.polled pending time p) count' split' ?_
          simp only [Watch.after, ← Nat.add_assoc]
          exact plays
    · exact course_of_ended watches count split (fun pending time => goesOn ⟨pending, time⟩) plays

/-- Whatever is delivered, a change takes one of these courses. -/
theorem course_of_change (c : ServiceClient) (cluster url : String) (body : Json)
    (left : List Delivery) :
    Course c cluster (c.changeRequest url body) left
      (script.play (c.change cluster url body) { left }).1
      (script.play (c.change cluster url body) { left }).2 := by
  cases left with
  | nil =>
    have none : FailsWith cluster Operation.ofJson? _ _ := .unsent World.exhausted 0
    exact .unanswered none rfl
  | cons d rest =>
    cases result : accept cluster d.outcome >>= decode Operation.ofJson? with
    | error e =>
      rw [play_change_rejected (failsWith_iff.2 result)]
      exact .unanswered (failsWith_iff.2 result) rfl
    | ok o =>
      obtain ⟨first, rfl, rfl⟩ := exists_legible result
      have watches : Watches c (c.changeRequest url body) [first.delivery] _ := .started first
      have plays : script.play (c.change cluster url body) { left := first.delivery :: rest } = _ :=
        play_change watches
      rw [plays]
      exact course_of_watches watches (Nat.zero_add _) rfl rfl

theorem asksOnly_watch (polls elapsed : Nat) (o : Operation) :
    (c.watch cluster polls elapsed o).AsksOnly (Lasting c.requestTimeout) := by
  induction polls generalizing elapsed o with
  | zero =>
    unfold watch
    split
    · trivial
    · split <;> trivial
  | succ polls ih =>
    unfold watch
    split
    · trivial
    · split
      · trivial
      · have lasts : (fetch Operation.ofJson? (c.pollRequest o) cluster).AsksOnly
            (Lasting c.requestTimeout) := asksOnly_readWithin retryWaits
        refine ⟨trivial, fun _ => (lasts.timedFrom 0).bind fun told => ?_⟩
        obtain ⟨result, took⟩ := told
        cases result with
        | error e => trivial
        | ok o => exact ih ..

theorem asksOnly_change : (c.change cluster url body).AsksOnly (Lasting c.requestTimeout) := by
  refine Program.AsksOnly.bind (p := Network.send (c.changeRequest url body))
    ⟨rfl, fun _ => trivial⟩ fun delivery => ?_
  cases accept cluster delivery.outcome >>= decode Operation.ofJson? with
  | error e => trivial
  | ok o => exact asksOnly_watch ..

end Watching

/-- Makes a call on a machine whose answers are given in advance. -/
def making (c : ServiceClient) (call : Call) (w : World) :
    Run Machine World (Except ApiError call.Answer) :=
  w.run ((c.make call).interpret Machine.network)

/-- What a change of a cluster comes to, whatever is delivered to requests that may take as long as
those of the client. -/
structure Operates (c : ServiceClient) (cluster : String) (call : Call) (request : HttpRequest)
    (read : Operation → call.Answer) : Prop where
  /-- The change is sent once. -/
  once : ∀ w : World, (sentRequests (c.making call w).asked).filter (·.method = .post) = [request]
  /-- Every further request asks for the operation that was told of last, as a poll that is answered
  or, up to three times, as one that is not. -/
  asks : ∀ w : World, sentRequests (c.making call w).asked = [request] ∨
    ∃ seen rest s, w.deliveries c.requestTimeout = seen ++ rest ∧ Watches c request seen s ∧
      ∃ k ≤ 3, sentRequests (c.making call w).asked =
        s.sent ++ List.replicate k (c.pollRequest s.latest)
  /-- It succeeds exactly if it comes to an operation that is done without an error, and its result
  is read from that operation. -/
  succeeds : ∀ (w : World) a, (c.making call w).value = some (.ok a) ↔
    ∃ seen rest s, w.deliveries c.requestTimeout = seen ++ rest ∧ Watches c request seen s ∧
      s.latest.done = true ∧ s.latest.error = none ∧ a = read s.latest
  /-- It fails as an operation exactly if it comes to one that is done with an error, and with that
  error. -/
  fails : ∀ (w : World) id code message,
    (c.making call w).value = some (.error (.operationFailed id code message)) ↔
      ∃ seen rest s, w.deliveries c.requestTimeout = seen ++ rest ∧ Watches c request seen s ∧
        s.latest.done = true ∧ s.latest.id = id ∧ s.latest.error = some ⟨code, message⟩
  /-- It times out exactly if it comes to an operation that is not done when there is no time
  left. -/
  timesOut : ∀ (w : World) id secs,
    (c.making call w).value = some (.error (.operationTimeout id secs)) ↔
      ∃ seen rest s, w.deliveries c.requestTimeout = seen ++ rest ∧ Watches c request seen s ∧
        s.latest.done = false ∧ ¬ c.HasTime s ∧ s.latest.id = id ∧ s.elapsed / 1000 = secs
  /-- If the answer to the change tells of no operation, its error is what the call fails with. -/
  rejected : ∀ (w : World) d rest e, w.deliveries c.requestTimeout = d :: rest →
    FailsWith cluster Operation.ofJson? d e → (c.making call w).value = some (.error e)
  /-- If a poll fails, its error is what the call fails with. -/
  breaks : ∀ (w : World) seen rest s (p : FailedReading cluster Operation.ofJson?),
    w.deliveries c.requestTimeout = seen ++ (p.script ++ rest) → Watches c request seen s →
      s.latest.done = false → c.HasTime s → (c.making call w).value = some (.error p.error)
  /-- When it comes to an operation that is done, or to the end of its time, the time that it has
  counted is the time that has gone by since the answer to the change. -/
  keepsTime : ∀ (w : World) seen rest s, w.deliveries c.requestTimeout = seen ++ rest →
    Watches c request seen s → (s.latest.done = false → ¬ c.HasTime s) →
      (c.making call w).elapsed = s.answered + s.elapsed
  /-- How many polls are allowed for never matters as long as there are fewer answers: the time alone
  decides. -/
  unlimited : ∀ (w : World) seen rest s, w.deliveries c.requestTimeout = seen ++ rest →
    Watches c request seen s → w.responses.length ≤ c.idlePolls →
      (c.HasTime s ↔ s.elapsed < c.operationTimeout)

section Calls

variable {c : ServiceClient} {cluster : String} {call : Call} {request : HttpRequest}
  {read : Operation → call.Answer} {w : World} {seen rest : List Delivery} {s : Watch}

/-- A change is sent with its body and read from the operation it has started. -/
theorem Changes.make_eq (h : Changes c cluster call request read) :
    ∃ url body, request = c.changeRequest url body ∧
      c.make call = c.change cluster url body >>= fun result => pure (result.map read) := by
  cases h with
  | create some =>
    refine ⟨_, _, rfl, ?_⟩
    have specified : ¬ (List.isEmpty _ = true) := fun none => some (List.isEmpty_iff.1 none)
    exact if_neg specified
  | update u => exact ⟨_, _, rfl, rfl⟩
  | delete name => exact ⟨_, _, rfl, rfl⟩

theorem Changes.isPost (h : Changes c cluster call request read) : request.method = .post := by
  cases h <;> rfl

theorem Watches.filter_sent (h : Watches c request seen s) (post : request.method = .post) :
    s.sent.filter (·.method = .post) = [request] := by
  induction h with
  | started first => simp [post]
  | polled _ _ _ p ih => simp [Watch.after, ih, pollRequest]

/-- A call runs as its change is played with what the machine delivers. -/
theorem Changes.making_eq (h : Changes c cluster call request read) (w : World) :
    ∃ url body, request = c.changeRequest url body ∧
      let played := script.play (c.change cluster url body)
        { left := w.deliveries c.requestTimeout }
      (c.making call w).value = some (played.1.map read) ∧
        sentRequests (c.making call w).asked = played.2.sent ∧
        (c.making call w).elapsed = played.2.now := by
  obtain ⟨url, body, same, make⟩ := h.make_eq
  have lasts : (c.make call).AsksOnly (Lasting c.requestTimeout) := by
    rw [make]
    exact asksOnly_change.bind fun result => trivial
  obtain ⟨value, after⟩ := run_network lasts 0 w []
  rw [make, Server.play_bind, ← make] at value after
  exact ⟨url, body, same, value, (congrArg Script.sent after).symm, (congrArg Script.now after).symm⟩

theorem Changes.course (h : Changes c cluster call request read) (w : World) :
    ∃ result after, (c.making call w).value = some (result.map read) ∧
      sentRequests (c.making call w).asked = after.sent ∧ (c.making call w).elapsed = after.now ∧
      Course c cluster request (w.deliveries c.requestTimeout) result after := by
  obtain ⟨url, body, rfl, value, sent, now⟩ := h.making_eq w
  exact ⟨_, _, value, sent, now, course_of_change c cluster url body _⟩

theorem Changes.course_of_ok (h : Changes c cluster call request read) {a : call.Answer}
    (value : (c.making call w).value = some (.ok a)) :
    ∃ o after, a = read o ∧
      Course c cluster request (w.deliveries c.requestTimeout) (.ok o) after := by
  obtain ⟨result, after, came, -, -, course⟩ := h.course w
  rw [came] at value
  cases result with
  | error e => cases value
  | ok o =>
    cases value
    exact ⟨o, after, rfl, course⟩

theorem Changes.course_of_error (h : Changes c cluster call request read) {e : ApiError}
    (value : (c.making call w).value = some (.error e)) :
    ∃ after, Course c cluster request (w.deliveries c.requestTimeout) (.error e) after := by
  obtain ⟨result, after, came, -, -, course⟩ := h.course w
  rw [came] at value
  cases result with
  | error e' =>
    cases value
    exact ⟨after, course⟩
  | ok o => cases value

/-- Deliveries that are watched are what the call comes to next. -/
theorem Changes.making_of_watches (h : Changes c cluster call request read)
    (split : w.deliveries c.requestTimeout = seen ++ rest) (watches : Watches c request seen s) :
    let played := script.play (c.watch cluster (c.pollCount - s.polls) s.elapsed s.latest)
      ⟨rest, s.sent, s.answered + s.elapsed⟩
    (c.making call w).value = some (played.1.map read) ∧
      (c.making call w).elapsed = played.2.now := by
  obtain ⟨url, body, rfl, value, -, now⟩ := h.making_eq w
  rw [split, play_change watches] at value now
  exact ⟨value, now⟩

theorem Changes.making_of_done (h : Changes c cluster call request read)
    (split : w.deliveries c.requestTimeout = seen ++ rest) (watches : Watches c request seen s)
    (done : s.latest.done = true) :
    (c.making call w).value = some ((finished s.latest).map read) ∧
      (c.making call w).elapsed = s.answered + s.elapsed := by
  obtain ⟨value, now⟩ := h.making_of_watches split watches
  rw [play_watch_done done] at value now
  exact ⟨value, now⟩

theorem Changes.making_of_late (h : Changes c cluster call request read)
    (split : w.deliveries c.requestTimeout = seen ++ rest) (watches : Watches c request seen s)
    (pending : s.latest.done = false) (late : ¬ c.HasTime s) :
    (c.making call w).value =
        some (.error (.operationTimeout s.latest.id (s.elapsed / 1000))) ∧
      (c.making call w).elapsed = s.answered + s.elapsed := by
  have spent : c.operationTimeout ≤ s.elapsed ∨ c.pollCount - s.polls = 0 := by
    rw [watches.hasTime_iff] at late
    omega
  obtain ⟨value, now⟩ := h.making_of_watches split watches
  rw [play_watch_late pending spent] at value now
  exact ⟨value, now⟩

theorem Changes.value_of_rejected (h : Changes c cluster call request read) {d : Delivery}
    {e : ApiError} (split : w.deliveries c.requestTimeout = d :: rest)
    (failed : FailsWith cluster Operation.ofJson? d e) :
    (c.making call w).value = some (.error e) := by
  obtain ⟨url, body, -, value, -, -⟩ := h.making_eq w
  rw [split, play_change_rejected failed] at value
  exact value

theorem Changes.value_of_broken (h : Changes c cluster call request read)
    (p : FailedReading cluster Operation.ofJson?)
    (split : w.deliveries c.requestTimeout = seen ++ (p.script ++ rest))
    (watches : Watches c request seen s) (pending : s.latest.done = false) (time : c.HasTime s) :
    (c.making call w).value = some (.error p.error) := by
  obtain ⟨early, allowed⟩ := watches.hasTime_iff.1 time
  obtain ⟨polls, count⟩ := Nat.exists_eq_add_of_lt allowed
  have now : c.pollCount - s.polls = polls + 1 := by omega
  have fetched : script.play (fetch Operation.ofJson? (c.pollRequest s.latest) cluster)
    ⟨p.script ++ rest, s.sent, s.answered + s.elapsed + c.pollInterval⟩ = _ :=
    play_fetch_failed p ..
  obtain ⟨value, -⟩ := h.making_of_watches split watches
  rw [now, play_watch_more pending early fetched] at value
  exact value

/-- Whatever is delivered, a change is sent once and comes to what its operation comes to. -/
theorem change_follows_operation (h : Changes c cluster call request read) :
    c.Operates cluster call request read where
  once w := by
    obtain ⟨result, after, -, sent, -, course⟩ := h.course w
    have post := h.isPost
    rw [sent]
    cases course with
    | unanswered _ asked => simp [asked, post]
    | done _ watches => exact watches.filter_sent post
    | late _ watches => exact watches.filter_sent post
    | broken _ watches _ _ _ _ asked => simp [asked, watches.filter_sent post, pollRequest]
  asks w := by
    obtain ⟨result, after, -, sent, -, course⟩ := h.course w
    rw [sent]
    cases course with
    | unanswered _ asked => exact .inl asked
    | done split watches => exact .inr ⟨_, _, _, split, watches, 0, by omega, by simp⟩
    | late split watches => exact .inr ⟨_, _, _, split, watches, 0, by omega, by simp⟩
    | broken split watches _ _ _ few asked =>
      exact .inr ⟨_, _, _, split, watches, _, Nat.succ_le_succ few, asked⟩
  succeeds w a := by
    constructor
    · intro value
      obtain ⟨o, after, rfl, course⟩ := h.course_of_ok value
      obtain ⟨seen, rest, s, split, watches, done, fine, rfl⟩ := course.of_ok
      exact ⟨seen, rest, s, split, watches, done, fine, rfl⟩
    · rintro ⟨seen, rest, s, split, watches, done, fine, rfl⟩
      rw [(h.making_of_done split watches done).1, finished_eq_ok.2 ⟨fine, rfl⟩]
      rfl
  fails w id code message := by
    constructor
    · intro value
      obtain ⟨after, course⟩ := h.course_of_error value
      exact course.of_operationFailed
    · rintro ⟨seen, rest, s, split, watches, done, rfl, failed⟩
      rw [(h.making_of_done split watches done).1, finished_eq_error.2 ⟨_, failed, rfl⟩]
      rfl
  timesOut w id secs := by
    constructor
    · intro value
      obtain ⟨after, course⟩ := h.course_of_error value
      exact course.of_operationTimeout
    · rintro ⟨seen, rest, s, split, watches, pending, late, rfl, rfl⟩
      exact (h.making_of_late split watches pending late).1
  rejected w d rest e split failed := h.value_of_rejected split failed
  breaks w seen rest s p split watches pending time :=
    h.value_of_broken p split watches pending time
  keepsTime w seen rest s split watches ended := by
    cases state : s.latest.done with
    | true => exact (h.making_of_done split watches state).2
    | false => exact (h.making_of_late split watches state (ended state)).2
  unlimited w seen rest s split watches enough := by
    have count : (w.deliveries c.requestTimeout).length = w.responses.length := by
      simp [World.deliveries]
    have fewer := watches.polls_lt
    rw [split, List.length_append] at count
    exact and_iff_left fun _ => by omega

/-- An operation that goes on. -/
def goesOn : Legible Operation.ofJson? where
  response.status := 200
  response.body := "\x7b\"id\":\"op\",\"done\":false\x7d"
  value := ⟨"op", false, none, none⟩
  success := by decide
  body := by decide +kernel

/-- An operation that is done; before it is told of, a request comes too soon and another one gets
no answer in time. -/
def doneAfterTrouble : Reading Operation.ofJson? where
  failures := [⟨.ok { status := 429 }, 40⟩, ⟨.error World.timedOut, 30000⟩]
  response.status := 200
  response.body :=
    "\x7b\"id\":\"op\",\"done\":true,\"metadata\":\x7b\"hostNames\":[\"a\"]\x7d\x7d"
  took := 250
  value := ⟨"op", true, none, some ⟨none, ["a"]⟩⟩
  transient := by simp [Transient]
  few := by decide
  success := by decide
  body := by decide +kernel

theorem change_follows_operation_created :
    let call : Call := .create "c1" [{ zone := "z" }]
    let w := worldOf (goesOn.delivery :: doneAfterTrouble.script)
    ((new "token" "https://service").making call w).value = some (.ok ["a"]) ∧
      ((sentRequests ((new "token" "https://service").making call w).asked).filter
        (·.method = .post)).length = 1 ∧
      ((new "token" "https://service").making call w).elapsed = 35290 := by
  intro call w
  let c := new "token" "https://service"
  let request := c.postRequest "c1" "batchCreate" (createBody [{ zone := "z" }])
  have watches : Watches c request _ _ :=
    (Watches.started goesOn).polled rfl ⟨by decide, by decide⟩ doneAfterTrouble
  have operates := change_follows_operation
    (show Changes c "c1" call request _ from .create (by decide))
  refine ⟨(operates.succeeds w _).2 ⟨_, [], _, rfl, watches, rfl, rfl, rfl⟩, ?_, ?_⟩
  · rw [operates.once]
    rfl
  · rw [operates.keepsTime w _ [] _ rfl watches nofun]
    decide +kernel

end Calls

end ServiceClient

end HostRoster
