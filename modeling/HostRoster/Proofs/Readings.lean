import HostRoster.Proofs.Scripts
import HostRoster.Service.Client
import Mathlib.Algebra.BigOperators.Group.List.Basic
import Mathlib.Tactic.SplitIfs

/-!
# Reading from the service

A request that only reads is sent up to three times, each time after a longer wait. So what is read
comes from at most two deliveries that may pass by themselves and the one after them. The time that
goes by is that of the deliveries and the waits between them.
-/
namespace HostRoster

/-- What may go well if the request is sent again: there was no response, or one that it came too
soon after others. -/
def Transient (d : Delivery) : Prop := ∀ response, d.outcome = .ok response → response.status = 429

/-- A response of success, with what its body is read as. -/
structure Legible {α : Type} (read : Json → Option α) where
  response : HttpResponse
  /-- In milliseconds. -/
  took : Nat := 0
  value : α
  success : 200 ≤ response.status ∧ response.status < 300
  body : (Json.parse response.body >>= read) = some value

def Legible.delivery {α : Type} {read : Json → Option α} (p : Legible read) : Delivery :=
  ⟨.ok p.response, p.took⟩

theorem Legible.not_transient {α : Type} {read : Json → Option α} (p : Legible read) :
    ¬ Transient p.delivery := by
  intro early
  have status := early p.response rfl
  have success := p.success
  omega

/-- What is read from one such response after at most two transient deliveries. -/
structure Reading {α : Type} (read : Json → Option α) extends Legible read where
  failures : List Delivery
  transient : ∀ f ∈ failures, Transient f
  few : failures.length ≤ 2

/-- The time from the first of some tries to what comes of the last one: that of each of them and
that of the waits between them. -/
def triesTime (tries : List Delivery) : Nat :=
  (ServiceClient.retryWaits.take (tries.length - 1)).sum + (tries.map Delivery.took).sum

namespace Reading
variable {α : Type} {read : Json → Option α}

/-- What comes of the requests for a reading. -/
def script (p : Reading read) : List Delivery := p.failures ++ [p.delivery]

def time (p : Reading read) : Nat := triesTime p.script

end Reading

namespace ServiceClient
variable {α : Type} {c : ServiceClient} {cluster : String} {request : HttpRequest}
  {read : Json → Option α} {rest : List Delivery} {sent : List HttpRequest} {now : Nat}

/-- The error that a delivery comes to, as far as nothing is read from it. -/
inductive FailsWith (cluster : String) (read : Json → Option α) : Delivery → ApiError → Prop
  | unsent (reason : String) (took : Nat) :
      FailsWith cluster read ⟨.error reason, took⟩ (.network ("Request failed: " ++ reason))
  | throttled {response : HttpResponse} (early : response.status = 429) (took : Nat) :
      FailsWith cluster read ⟨.ok response, took⟩ (.rateLimited (pause response))
  | refused {response : HttpResponse} {e : ApiError} (other : response.status ≠ 429)
      (status : statusError? cluster response = some e) (took : Nat) :
      FailsWith cluster read ⟨.ok response, took⟩ e
  | garbled {response : HttpResponse} (success : 200 ≤ response.status ∧ response.status < 300)
      (body : (Json.parse response.body >>= read) = none) (took : Nat) :
      FailsWith cluster read ⟨.ok response, took⟩
        (.invalidResponse "Failed to parse response: error decoding response body")

/-- What cannot be read: after at most two transient deliveries comes one that is an error. If that
one is transient too, it is the third. -/
structure FailedReading {α : Type} (cluster : String) (read : Json → Option α) where
  failures : List Delivery
  last : Delivery
  error : ApiError
  transient : ∀ f ∈ failures, Transient f
  few : failures.length ≤ 2
  fails : FailsWith cluster read last error
  tired : Transient last → failures.length = 2

namespace FailedReading

/-- What comes of the requests for a failed reading. -/
def script (p : FailedReading cluster read) : List Delivery := p.failures ++ [p.last]

def time (p : FailedReading cluster read) : Nat := triesTime p.script

end FailedReading

theorem statusError?_eq_none {response : HttpResponse} :
    statusError? cluster response = none ↔ 200 ≤ response.status ∧ response.status < 300 := by
  unfold statusError?
  split_ifs <;> simp <;> omega

theorem mayPass_statusError {response : HttpResponse} {e : ApiError}
    (status : statusError? cluster response = some e) :
    mayPass e = true ↔ response.status = 429 := by
  unfold statusError? at status
  split_ifs at status with early <;> cases status <;>
    simp [mayPass, SyncError.isRetryable, SyncError.retryDelaySecs, early]

theorem accept_ok {outcome : Except String HttpResponse} {accepted : HttpResponse} :
    accept cluster outcome = .ok accepted ↔
      outcome = .ok accepted ∧ 200 ≤ accepted.status ∧ accepted.status < 300 := by
  cases outcome with
  | error reason => simp [accept]
  | ok response =>
    rw [accept]
    cases status : statusError? cluster response with
    | none =>
      have success := statusError?_eq_none.1 status
      simp only [Option.elim_none, Except.ok.injEq]
      constructor
      · rintro rfl
        exact ⟨rfl, success⟩
      · exact And.left
    | some e =>
      have failed : ¬(200 ≤ response.status ∧ response.status < 300) := fun success => by
        rw [statusError?_eq_none.2 success] at status
        cases status
      simp only [Option.elim_some, Except.ok.injEq, reduceCtorEq, false_iff]
      rintro ⟨rfl, success⟩
      exact failed success

/-- A delivery is transient exactly if it is an error that may pass. -/
theorem transient_iff {d : Delivery} :
    Transient d ↔ ∃ e, accept cluster d.outcome = .error e ∧ mayPass e = true := by
  obtain ⟨outcome, took⟩ := d
  cases outcome with
  | error reason => exact iff_of_true nofun ⟨_, rfl, rfl⟩
  | ok response =>
    have only : Transient ⟨.ok response, took⟩ ↔ response.status = 429 := by simp [Transient]
    rw [only, accept]
    cases status : statusError? cluster response with
    | none =>
      have success := statusError?_eq_none.1 status
      simp
      omega
    | some e => simp [mayPass_statusError status]

theorem decode_ok {response : HttpResponse} {value : α} :
    decode read response = .ok value ↔ (Json.parse response.body >>= read) = some value := by
  rw [decode]
  cases Json.parse response.body >>= read <;> simp

theorem accept_legible (first : Legible read) :
    (accept cluster first.delivery.outcome >>= decode read) = .ok first.value := by
  have accepted : accept cluster first.delivery.outcome = .ok first.response :=
    accept_ok.2 ⟨rfl, first.success⟩
  rw [accepted]
  exact decode_ok.2 first.body

/-- What is read is read from a response of success. -/
theorem exists_legible {value : α} {d : Delivery}
    (result : (accept cluster d.outcome >>= decode read) = .ok value) :
    ∃ first : Legible read, first.value = value ∧ d = first.delivery := by
  obtain ⟨outcome, took⟩ := d
  cases accepted : accept cluster outcome with
  | error e =>
    rw [accepted] at result
    cases result
  | ok found =>
    obtain ⟨rfl, success⟩ := accept_ok.1 accepted
    rw [accepted] at result
    exact ⟨⟨found, took, value, success, decode_ok.1 result⟩, rfl, rfl⟩

/-- A delivery comes to an error exactly in these ways. -/
theorem failsWith_iff {d : Delivery} {e : ApiError} :
    FailsWith cluster read d e ↔ (accept cluster d.outcome >>= decode read) = .error e := by
  constructor
  · intro fails
    cases fails with
    | unsent reason => rfl
    | throttled early =>
      rw [accept, statusError?, if_pos early]
      rfl
    | refused other status =>
      rw [accept, status]
      rfl
    | garbled success body =>
      rw [accept_ok.2 ⟨rfl, success⟩]
      change decode read _ = _
      rw [decode, body]
  · intro result
    obtain ⟨outcome, took⟩ := d
    cases outcome with
    | error reason =>
      obtain rfl := Except.error.inj result
      exact .unsent reason took
    | ok response =>
      cases status : statusError? cluster response with
      | some e' =>
        rw [accept, status] at result
        obtain rfl := Except.error.inj result
        by_cases early : response.status = 429
        · rw [statusError?, if_pos early] at status
          obtain rfl := Option.some.inj status
          exact .throttled early took
        · exact .refused early status took
      | none =>
        have success := statusError?_eq_none.1 status
        rw [accept_ok.2 ⟨rfl, success⟩] at result
        change decode read response = .error e at result
        rw [decode] at result
        cases body : Json.parse response.body >>= read with
        | some value =>
          rw [body] at result
          cases result
        | none =>
          rw [body] at result
          obtain rfl := Except.error.inj result
          exact .garbled success body took

section Stream

/-- The time of so many deliveries from a position on. -/
def tookFrom (responses : Nat → Delivery) : Nat → Nat → Nat
  | _, 0 => 0
  | given, n + 1 => (responses given).took + tookFrom responses (given + 1) n

theorem tookFrom_le {responses : Nat → Delivery} {bound : Nat}
    (brief : ∀ n, (responses n).took ≤ bound) (given n : Nat) :
    tookFrom responses given n ≤ n * bound := by
  induction n generalizing given with
  | zero => exact Nat.zero_le _
  | succ n ih =>
    rw [tookFrom, Nat.succ_mul]
    have first := brief given
    have others := ih (given + 1)
    omega

theorem tookFrom_scripted (left : List Delivery) (given n : Nat) :
    tookFrom (scripted left) given n = (((left.drop given).take n).map Delivery.took).sum := by
  induction n generalizing given with
  | zero => simp [tookFrom]
  | succ n ih =>
    rw [tookFrom, ih, scripted]
    by_cases more : given < left.length
    · rw [List.drop_eq_getElem_cons more, List.getElem?_eq_getElem more, List.take_succ_cons,
        List.map_cons, List.sum_cons]
      rfl
    · have past : left.length ≤ given := Nat.le_of_not_lt more
      rw [List.drop_eq_nil_of_le past, List.drop_eq_nil_of_le (Nat.le_succ_of_le past),
        List.getElem?_eq_none past]
      simp

variable (cluster) (request) (read) (responses : Nat → Delivery)

/-- What is read from a stream is read from one of its deliveries, after transient ones. By
induction on the waits, each of which follows a transient delivery. -/
theorem run_readWithin (waits : List Nat) (elapsed given : Nat) :
    ∃ again ≤ waits.length, (∀ k < again, Transient (responses (given + k))) ∧
      (Transient (responses (given + again)) → again = waits.length) ∧
      (answering responses).run none (readWithin read request cluster waits) elapsed given =
        ⟨some (accept cluster (responses (given + again)).outcome >>= decode read),
          given + again + 1,
          elapsed + (waits.take again).sum + tookFrom responses given (again + 1),
          .send request :: (waits.take again).flatMap fun ms => [.wait ms, .send request]⟩ := by
  induction waits generalizing elapsed given with
  | nil => exact ⟨0, Nat.le_refl _, by simp, fun _ => rfl, rfl⟩
  | cons wait waits ih =>
    have sends : (answering responses).run none (Network.send request) elapsed given =
      ⟨some (responses given), given + 1, elapsed + (responses given).took, [.send request]⟩ := rfl
    rw [readWithin, Server.run_then sends]
    by_cases early : Transient (responses given)
    · obtain ⟨e, failed, passes⟩ :
          ∃ e, accept cluster (responses given).outcome = .error e ∧ mayPass e :=
        transient_iff.1 early
      obtain ⟨again, few, transient, tired, reads⟩ :=
        ih (elapsed + (responses given).took + wait) (given + 1)
      have pauses : (answering responses).run none (Network.wait wait)
          (elapsed + (responses given).took) (given + 1) =
        ⟨some (), given + 1, elapsed + (responses given).took + wait, [.wait wait]⟩ := rfl
      have next (k : Nat) : given + (k + 1) = given + 1 + k := by omega
      refine ⟨again + 1, Nat.succ_le_succ few, ?_, ?_, ?_⟩
      · rintro (_ | k) before
        · exact early
        · rw [next]
          exact transient k (Nat.lt_of_succ_lt_succ before)
      · rw [next, List.length_cons]
        exact fun early => congrArg (· + 1) (tired early)
      · have time : elapsed + (responses given).took + wait + (waits.take again).sum +
            tookFrom responses (given + 1) (again + 1) =
            elapsed + ((wait :: waits).take (again + 1)).sum +
              tookFrom responses given (again + 1 + 1) := by
          rw [List.take_succ_cons, List.sum_cons, tookFrom.eq_2 _ given]
          omega
        simp only [failed, if_pos passes]
        rw [Server.run_then pauses, reads, next again, time]
        rfl
    · refine ⟨0, Nat.zero_le _, by simp, fun last => absurd last early, ?_⟩
      cases accepted : accept cluster (responses given).outcome with
      | ok found => rfl
      | error e =>
        have final : ¬ mayPass e = true := fun passes => early (transient_iff.2 ⟨e, accepted, passes⟩)
        simp only [if_neg final]
        rfl

theorem requestsIn_tries (waits : List Nat) :
    requestsIn (.send request :: waits.flatMap fun ms => [.wait ms, .send request]) =
      List.replicate (waits.length + 1) request := by
  induction waits with
  | nil => rfl
  | cons wait waits ih => exact congrArg (request :: ·) ih

/-- So is what is read from a script, and its request is sent once for each delivery. -/
theorem exists_tries (waits : List Nat) (left : List Delivery) (sent : List HttpRequest)
    (now : Nat) :
    ∃ again ≤ waits.length, (∀ k < again, Transient (scripted left k)) ∧
      (Transient (scripted left again) → again = waits.length) ∧
      script.play (readWithin read request cluster waits) ⟨left, sent, now⟩ =
        (accept cluster (scripted left again).outcome >>= decode read,
          ⟨left.drop (again + 1), sent ++ List.replicate (again + 1) request,
            now + (waits.take again).sum + ((left.take (again + 1)).map Delivery.took).sum⟩) := by
  obtain ⟨again, few, transient, tired, reads⟩ :=
    run_readWithin cluster request read (scripted left) waits now 0
  obtain ⟨value, after⟩ := play_eq_run (readWithin read request cluster waits) left sent now 0
  rw [reads] at value after
  simp only [Nat.zero_add, tookFrom_scripted, List.drop_zero] at transient tired value after
  rw [requestsIn_tries, List.length_take, Nat.min_eq_left few] at after
  exact ⟨again, few, transient, tired, Prod.ext (Option.some.inj value).symm after⟩

end Stream

/-- Reading goes on after transient deliveries, until there are no more waits. -/
theorem play_readWithin {waits : List Nat} {failures : List Delivery} {last : Delivery}
    (transient : ∀ f ∈ failures, Transient f) (few : failures.length ≤ waits.length)
    (tired : Transient last → failures.length = waits.length) :
    script.play (readWithin read request cluster waits) ⟨failures ++ last :: rest, sent, now⟩ =
      (accept cluster last.outcome >>= decode read,
        ⟨rest, sent ++ List.replicate (failures.length + 1) request,
          now + ((waits.take failures.length).sum +
            ((failures ++ [last]).map Delivery.took).sum)⟩) := by
  obtain ⟨again, few', transient', tired', plays⟩ :=
    exists_tries cluster request read waits (failures ++ last :: rest) sent now
  have here : scripted (failures ++ last :: rest) failures.length = last := by simp [scripted]
  obtain rfl : again = failures.length := by
    rcases Nat.lt_trichotomy again failures.length with fewer | same | more
    · have early : scripted (failures ++ last :: rest) again = failures[again] := by
        simp [scripted, List.getElem?_append_left fewer, List.getElem?_eq_getElem fewer]
      have all := tired' (early ▸ transient _ (List.getElem_mem fewer))
      omega
    · exact same
    · have all := tired (here ▸ transient' _ more)
      omega
  rw [here] at plays
  have tries : (failures ++ last :: rest).take (failures.length + 1) = failures ++ [last] := by
    simp [List.take_append]
  have after : (failures ++ last :: rest).drop (failures.length + 1) = rest := by
    simp [List.drop_append]
  rw [plays, tries, after, Nat.add_assoc]

/-- A reading whose last response can be read. -/
theorem play_fetch (p : Reading read) (request : HttpRequest) (sent : List HttpRequest)
    (now : Nat) :
    script.play (fetch read request cluster) ⟨p.script ++ rest, sent, now⟩ =
      (.ok p.value, ⟨rest, sent ++ List.replicate p.script.length request, now + p.time⟩) := by
  have length : p.script.length = p.failures.length + 1 := by simp [Reading.script]
  have plays : script.play (readWithin read request cluster retryWaits)
      ⟨p.failures ++ p.delivery :: rest, sent, now⟩ = _ :=
    play_readWithin p.transient p.few fun early => absurd early p.toLegible.not_transient
  rw [accept_legible] at plays
  rw [Reading.time, triesTime, length, Reading.script, List.append_assoc]
  exact plays

/-- A reading that fails. -/
theorem play_fetch_failed (p : FailedReading cluster read) (request : HttpRequest)
    (sent : List HttpRequest) (now : Nat) :
    script.play (fetch read request cluster) ⟨p.script ++ rest, sent, now⟩ =
      (.error p.error, ⟨rest, sent ++ List.replicate p.script.length request, now + p.time⟩) := by
  have length : p.script.length = p.failures.length + 1 := by simp [FailedReading.script]
  have plays : script.play (readWithin read request cluster retryWaits)
      ⟨p.failures ++ p.last :: rest, sent, now⟩ = _ := play_readWithin p.transient p.few p.tired
  rw [failsWith_iff.1 p.fails] at plays
  rw [FailedReading.time, triesTime, length, FailedReading.script, List.append_assoc]
  exact plays

theorem exists_reading {value : α} {left : List Delivery} {after : Script}
    (plays : script.play (fetch read request cluster) ⟨left, sent, now⟩ = (.ok value, after)) :
    ∃ (p : Reading read) (rest : List Delivery), p.value = value ∧ left = p.script ++ rest ∧
      after = ⟨rest, sent ++ List.replicate p.script.length request, now + p.time⟩ := by
  obtain ⟨again, few, transient, -, plays'⟩ :=
    exists_tries cluster request read retryWaits left sent now
  have result := congrArg Prod.fst (plays'.symm.trans plays)
  have more : again < left.length := by
    by_contra past
    simp only [scripted, List.getElem?_eq_none (Nat.le_of_not_lt past)] at result
    cases result
  have inside {k : Nat} (early : k < left.length) : scripted left k = left[k] := by
    simp [scripted, early]
  have length : (left.take again).length = again := by simp [Nat.min_eq_left (Nat.le_of_lt more)]
  obtain ⟨found, value, delivered⟩ := exists_legible result
  let p : Reading read := {
    found with
    failures := left.take again
    transient := by
      intro f mem
      obtain ⟨k, early, rfl⟩ := List.getElem_of_mem mem
      rw [length] at early
      rw [List.getElem_take, ← inside (Nat.lt_trans early more)]
      exact transient k early
    few := length.symm ▸ few }
  have split : left = p.script ++ left.drop (again + 1) := by
    rw [Reading.script, List.append_assoc, List.singleton_append]
    change left = left.take again ++ found.delivery :: _
    rw [← delivered, inside more, ← List.drop_eq_getElem_cons more, List.take_append_drop]
  have reads : script.play (fetch read request cluster)
      ⟨p.script ++ left.drop (again + 1), sent, now⟩ = _ := play_fetch p request sent now
  rw [← split, plays] at reads
  exact ⟨p, _, value, split, congrArg Prod.snd reads⟩

/-- A reading that fails has sent its request up to three times. -/
theorem exists_failed_reading {e : ApiError} {left : List Delivery} {after : Script}
    (plays : script.play (fetch read request cluster) ⟨left, sent, now⟩ = (.error e, after)) :
    (∃ k ≤ 2, after.sent = sent ++ List.replicate (k + 1) request) ∧
      ∃ d : Delivery, FailsWith cluster read d e := by
  obtain ⟨again, few, -, -, plays'⟩ := exists_tries cluster request read retryWaits left sent now
  have both := plays'.symm.trans plays
  exact ⟨⟨again, few, (congrArg (·.2.sent) both).symm⟩, _, failsWith_iff.2 (congrArg Prod.fst both)⟩

theorem asksOnly_readWithin (waits : List Nat) :
    (readWithin read request cluster waits).AsksOnly (Lasting request.timeoutMs) := by
  induction waits with
  | nil => exact ⟨rfl, fun _ => trivial⟩
  | cons wait waits ih =>
    refine Program.AsksOnly.bind (p := Network.send request) ⟨rfl, fun _ => trivial⟩
      fun delivery => ?_
    cases accept cluster delivery.outcome with
    | ok response => trivial
    | error e =>
      dsimp only
      split
      · exact ⟨trivial, fun _ => ih⟩
      · trivial

/-- A machine that has nothing but answers over the network. -/
def worldOf (script : List Delivery) : World where
  responses := script.map Delivery.outcome
  delays := script.map Delivery.took
  clock := ⟨0, 0⟩
  process := ""

end ServiceClient

end HostRoster
