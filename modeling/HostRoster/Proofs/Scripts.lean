import HostRoster.Proofs.Calls
import HostRoster.Proofs.Serving
import HostRoster.World

/-!
# Answers given in advance

A program over the network that runs on a machine in memory takes what the machine delivers one
after the other, each as the answer to the request it sends at that point. So what it comes to, and
when, can be read off the deliveries alone, together with the requests it sends. The deliveries may
also be an endless stream; a script is a stream that goes on with requests that cannot be sent.
-/
namespace HostRoster

variable {α σ : Type}

/-- Deliveries that are left, the requests that have been sent, and the time that has gone by. -/
structure Script where
  left : List Delivery
  sent : List HttpRequest := []
  now : Nat := 0

/-- The delivery of a script at a position. Behind its end nothing can be sent. -/
def scripted (left : List Delivery) (given : Nat) : Delivery :=
  left[given]?.getD { outcome := .error World.exhausted }

def Script.answer (s : Script) : (call : NetworkCall) → call.Answer × Script
  | .send request =>
    let delivery := scripted s.left 0
    (delivery, ⟨s.left.tail, s.sent ++ [request], s.now + delivery.took⟩)
  | .wait ms => ((), { s with now := s.now + ms })

/-- Answers with the deliveries of a script. -/
def script : Server Network Script where
  accept call s := ⟨s, call.time (s.answer call).1, fun s => s.answer call⟩

/-- The answer to a call when so many deliveries of a stream have been given. -/
def streamed (responses : Nat → Delivery) (given : Nat) : (call : NetworkCall) → call.Answer × Nat
  | .send _ => (responses given, given + 1)
  | .wait _ => ((), given)

/-- Answers with the deliveries of a stream. The state is how many of them have been given. -/
def answering (responses : Nat → Delivery) : Server Network Nat where
  accept call given :=
    ⟨given, call.time (streamed responses given call).1, fun given => streamed responses given call⟩

/-- The requests among calls over the network. -/
def requestsIn (calls : List Network.Request) : List HttpRequest :=
  calls.filterMap fun
    | .send request => some request
    | .wait _ => none

/-- The requests among calls on a machine. -/
def sentRequests (calls : List MachineCall) : List HttpRequest :=
  calls.filterMap fun
    | .network (.send request) => some request
    | _ => none

section Plays
variable {left rest : List Delivery} {sent : List HttpRequest} {request : HttpRequest} {now : Nat}

theorem play_send (delivery : Delivery) :
    script.play (Network.send request) ⟨delivery :: rest, sent, now⟩ =
      (delivery, ⟨rest, sent ++ [request], now + delivery.took⟩) := rfl

theorem play_wait (milliseconds : Nat) :
    script.play (Network.wait milliseconds) ⟨left, sent, now⟩ =
      ((), ⟨left, sent, now + milliseconds⟩) := rfl

/-- By induction on the program: what has been spent is the time since the start. -/
theorem play_timedFrom (p : Program Network α) {s : Script} {start spent : Nat}
    (now : s.now = start + spent) :
    script.play (p.timedFrom spent) s =
      (((script.play p s).1, (script.play p s).2.now - start), (script.play p s).2) := by
  induction p generalizing s spent with
  | done value =>
    have same : spent = s.now - start := by omega
    exact congrArg (fun told => ((value, told), s)) same
  | ask call next ih =>
    have later : (script.serve call s).2.now = s.now + call.time (script.serve call s).1 := by
      cases call <;> rfl
    exact ih _ (by rw [later, now, Nat.add_assoc])

theorem serve_drop (left : List Delivery) (given : Nat) :
    script.serve (.send request) ⟨left.drop given, sent, now⟩ =
      (scripted left given,
        ⟨left.drop (given + 1), sent ++ [request], now + (scripted left given).took⟩) := by
  have here : scripted (left.drop given) 0 = scripted left given := by simp [scripted]
  rw [← here, ← List.tail_drop]
  rfl

/-- A script plays like its stream. -/
theorem play_eq_run (p : Program Network α) (left : List Delivery) (sent : List HttpRequest)
    (elapsed given : Nat) :
    let run := (answering (scripted left)).run none p elapsed given
    let played := script.play p ⟨left.drop given, sent, elapsed⟩
    run.value = some played.1 ∧
      played.2 = ⟨left.drop run.state, sent ++ requestsIn run.asked, run.elapsed⟩ := by
  induction p generalizing sent elapsed given with
  | done value => exact ⟨rfl, by simp [requestsIn, Server.run, Server.play]⟩
  | ask call next ih =>
    cases call with
    | wait ms => exact ih () sent (elapsed + ms) given
    | send request =>
      obtain ⟨value, after⟩ := ih (scripted left given) (sent ++ [request])
        (elapsed + (scripted left given).took) (given + 1)
      have sends : script.serve (.send request) ⟨left.drop given, sent, elapsed⟩ = _ :=
        serve_drop left given
      simp only [Server.play, sends]
      refine ⟨value, after.trans ?_⟩
      rw [List.append_assoc]
      rfl

end Plays

/-- What was sent before, and when, makes no difference to the value. -/
theorem play_script_fst (p : Program Network α) (left : List Delivery)
    (sent sent' : List HttpRequest) (now now' : Nat) :
    (script.play p ⟨left, sent, now⟩).1 = (script.play p ⟨left, sent', now'⟩).1 := by
  induction p generalizing left sent sent' now now' with
  | done value => rfl
  | ask call next ih => cases call <;> exact ih ..

/-- A server whose replies tell how long they have taken. -/
def Server.TellsTime (server : Server Network σ) : Prop :=
  ∀ call s, (server.accept call s).delay = call.time (server.serve call s).1

theorem answering_tellsTime (responses : Nat → Delivery) : (answering responses).TellsTime :=
  fun _ _ => rfl

/-- What a timed program tells is the time that goes by. By induction on the program: what has been
spent is the time since the start. -/
theorem Server.TellsTime.run_timedFrom {server : Server Network σ} (tells : server.TellsTime)
    (p : Program Network α) (start spent : Nat) (s : σ) :
    server.run none (p.timedFrom spent) (start + spent) s =
      let run := server.run none p (start + spent) s
      { run with value := run.value.map fun value => (value, run.elapsed - start) } := by
  induction p generalizing spent s with
  | done value => simp [Program.timedFrom, run]
  | ask call next ih =>
    rw [Program.timedFrom, server.run_ask, server.run_ask, Nat.add_assoc, tells call s, ih]

namespace World

/-- What a machine delivers to requests that may take so long. -/
def deliveries (w : World) (timeout : Nat) : List Delivery :=
  w.responses.mapIdx fun n response => deliver timeout response (w.delays.getD n 0)

end World

/-- A call that sends nothing but requests that may take so long. -/
def Lasting (timeout : Nat) : NetworkCall → Prop
  | .send request => request.timeoutMs = timeout
  | .wait _ => True

theorem Program.AsksOnly.timedFrom {ok : Network.Request → Prop} {p : Program Network α}
    (hp : p.AsksOnly ok) (spent : Nat) : (p.timedFrom spent).AsksOnly ok := by
  induction p generalizing spent with
  | done value => trivial
  | ask call next ih => exact ⟨hp.1, fun reply => ih reply (hp.2 reply) _⟩

theorem serve_deliveries (w : World) (request : HttpRequest) (sent : List HttpRequest)
    (now : Nat) :
    script.serve (.send request) ⟨w.deliveries request.timeoutMs, sent, now⟩ =
      let (delivery, after) := w.answerNetwork (.send request)
      (delivery, ⟨after.deliveries request.timeoutMs, sent ++ [request], now + delivery.took⟩) := by
  obtain ⟨files, storage, responses, delays, input, environment, clock, process, idsGiven⟩ := w
  cases responses with
  | nil => rfl
  | cons response rest =>
    rw [World.deliveries, List.mapIdx_cons]
    cases delays <;> rfl

/-- A program over the network runs on a machine as its deliveries say. -/
theorem run_network {timeout : Nat} {p : Program Network α} (lasting : p.AsksOnly (Lasting timeout))
    (elapsed : Nat) (w : World) (sent : List HttpRequest) :
    let run := World.server.run none (p.interpret Machine.network) elapsed w
    let played := script.play p ⟨w.deliveries timeout, sent, elapsed⟩
    run.value = some played.1 ∧ played.2 =
      ⟨run.state.deliveries timeout, sent ++ sentRequests run.asked, run.elapsed⟩ := by
  induction p generalizing elapsed w sent with
  | done value => exact ⟨rfl, congrArg (Script.mk _ · _) (List.append_nil sent).symm⟩
  | ask call next ih =>
    obtain ⟨lasts, lasting⟩ := lasting
    cases call with
    | wait ms => exact ih () (lasting ()) (elapsed + ms) w sent
    | send request =>
      obtain rfl : request.timeoutMs = timeout := lasts
      let served := w.answerNetwork (.send request)
      obtain ⟨value, after⟩ := ih served.1 (lasting _) (elapsed + served.1.took) served.2
        (sent ++ [request])
      simp only [Server.play, serve_deliveries]
      refine ⟨value, after.trans ?_⟩
      rw [List.append_assoc]
      rfl

end HostRoster
