import HostRoster.Command.Context
import HostRoster.Proofs.Serving
import HostRoster.Proofs.Vetoes
import HostRoster.World

/-!
# Deadlines

A run under a limit asks the same requests and gets the same replies as the run without one, until
a reply would come too late. So the limit shows only in runs that need more time: they end with the
request whose reply is still due, and with all that was done for the requests before it. A program that hands
on what is left of its limit with every request ends the same way, without anybody who watches it.
-/
namespace HostRoster

variable {I : Interface} {α σ : Type}

namespace Server

/-- What becomes of a server, and of the time, when a request is given its time. -/
def Spends (server : Server I σ) (before : σ × Nat) (e : Exchange I) (after : σ × Nat) : Prop :=
  server.serve e.request before.1 = (e.reply, after.1) ∧
    after.2 = before.2 + (server.accept e.request before.1).delay

/-- A run that a limit cuts off: some requests are given their time, and the reply to the next one
comes too late. -/
structure CutsOff (server : Server I σ) (limit : Nat) (p : Program I α) (elapsed : Nat) (s : σ)
    (completed : List (Exchange I)) (r : I.Request) (next : I.Reply r → Program I α) (mid : σ)
    (now : Nat) : Prop where
  /-- The program asks the request after it has got the replies to those before. -/
  asks : p.Follows completed (.ask r next)
  /-- The requests before it are carried out one after the other. -/
  served : History server.Spends (s, elapsed) completed (mid, now)
  inTime : now ≤ limit
  late : limit < now + (server.accept r mid).delay
  /-- The run ends with the limit, and the request is left as it was accepted. -/
  ends : server.run (some limit) p elapsed s =
    ⟨none, (server.accept r mid).state, limit, completed.map Exchange.request ++ [r]⟩
  /-- Without a limit the run would have gone on from where the requests before it have led. -/
  goesOn : server.run none p elapsed s =
    { server.run none (.ask r next) now mid with
      asked := completed.map Exchange.request ++ (server.run none (.ask r next) now mid).asked }

variable (server : Server I σ) (limit : Nat)

theorem elapsed_le_run (p : Program I α) (elapsed : Nat) (s : σ) :
    elapsed ≤ (server.run none p elapsed s).elapsed := by
  induction p generalizing elapsed s with
  | done value => exact Nat.le_refl _
  | ask r next ih => exact (Nat.le_add_right _ _).trans (ih _ _ _)

/-- A request whose reply is due in time is given its time. -/
theorem run_ask_of_le {limit : Option Nat} {r : I.Request} (next : I.Reply r → Program I α)
    {elapsed : Nat} {s : σ} (inTime : ∀ most ∈ limit, elapsed + (server.accept r s).delay ≤ most) :
    server.run limit (.ask r next) elapsed s =
      let rest := server.run limit (next (server.serve r s).1)
        (elapsed + (server.accept r s).delay) (server.serve r s).2
      { rest with asked := r :: rest.asked } := by
  rw [run, if_neg (by simpa [Option.any_eq_false] using inTime)]
  rfl

theorem run_ask_of_lt {r : I.Request} (next : I.Reply r → Program I α) {elapsed : Nat} {s : σ}
    (late : limit < elapsed + (server.accept r s).delay) :
    server.run (some limit) (.ask r next) elapsed s =
      ⟨none, (server.accept r s).state, limit, [r]⟩ := by
  rw [run, Option.any_some, if_pos (by simpa using late)]
  rfl

/-- A limit makes no difference to a run that needs no more time, and cuts off any other. By
induction on the program: what is cut off later is cut off after one more request. -/
theorem run_limit (p : Program I α) {elapsed : Nat} (start : elapsed ≤ limit) (s : σ) :
    (server.run none p elapsed s).elapsed ≤ limit ∧
        server.run (some limit) p elapsed s = server.run none p elapsed s ∨
      limit < (server.run none p elapsed s).elapsed ∧
        ∃ completed r next mid now, server.CutsOff limit p elapsed s completed r next mid now := by
  induction p generalizing elapsed s with
  | done value => exact .inl ⟨start, rfl⟩
  | ask r next ih =>
    by_cases late : limit < elapsed + (server.accept r s).delay
    · refine .inr ⟨late.trans_le (server.elapsed_le_run _ _ _), [], r, next, s, elapsed, ?_⟩
      exact ⟨.rest _, .rest _, start, late, server.run_ask_of_lt limit next late, rfl⟩
    · have inTime := Nat.le_of_not_lt late
      have due : ∀ most ∈ some limit, elapsed + (server.accept r s).delay ≤ most := by
        simpa using inTime
      have limited := server.run_ask_of_le next due
      rw [server.run_ask]
      rcases ih (server.serve r s).1 inTime (server.serve r s).2 with ⟨fits, same⟩ | ⟨more, cut⟩
      · left
        rw [limited, same]
        exact ⟨fits, rfl⟩
      · obtain ⟨completed, r', next', mid, now, cut⟩ := cut
        refine .inr ⟨more, ⟨r, (server.serve r s).1⟩ :: completed, r', next', mid, now, ?_⟩
        refine ⟨.ask cut.asks, .move ⟨rfl, rfl⟩ cut.served, cut.inTime, cut.late, ?_, ?_⟩
        · rw [limited, cut.ends]
          rfl
        · rw [server.run_ask, cut.goesOn]
          rfl

/-- The requests of a run that is cut off are the first ones of the run without a limit. -/
theorem CutsOff.asked_prefix {server : Server I σ} {limit : Nat} {p : Program I α} {elapsed : Nat}
    {s : σ} {completed : List (Exchange I)} {r : I.Request} {next : I.Reply r → Program I α}
    {mid : σ} {now : Nat} (cut : server.CutsOff limit p elapsed s completed r next mid now) :
    (server.run (some limit) p elapsed s).asked <+: (server.run none p elapsed s).asked := by
  rw [cut.ends, cut.goesOn]
  exact (List.prefix_append_right_inj _).2 (List.prefix_append [r] _)

end Server

/-- Two runs end alike after the same requests. The first is that of a program that is told when it
is given up, so it always has a value. -/
structure Run.EndsAs (within : Run I.limited σ (Option α)) (run : Run I σ α) : Prop where
  value : within.value = some run.value
  state : within.state = run.state
  elapsed : within.elapsed = run.elapsed
  asked : within.asked.map Prod.fst = run.asked

/-- How a program goes on under a limit. -/
theorem Program.within_ask (r : I.Request) (next : I.Reply r → Program I α) (limit : Option Nat) :
    ∃ onward : I.limited.Reply (r, limit) → Program I.limited (Option α),
      (Program.ask r next).within limit = .ask (I := I.limited) (r, limit) onward ∧
        onward none = .done none ∧
        ∀ reply took, onward (some (reply, took)) = (next reply).within (limit.map (· - took)) := by
  rw [Program.within]
  exact ⟨_, rfl, rfl, fun _ _ => rfl⟩

namespace Server

variable {server : Server I σ} {r : I.Request} {s : σ}

theorem limited_accept_of_le {limit : Option Nat}
    (inTime : ∀ most ∈ limit, (server.accept r s).delay ≤ most) :
    server.limited.accept (r, limit) s =
      ⟨(server.accept r s).state, (server.accept r s).delay, fun mid =>
        (some (((server.accept r s).complete mid).1, (server.accept r s).delay),
          ((server.accept r s).complete mid).2)⟩ := by
  unfold limited
  dsimp only
  rw [if_neg (by simpa [Option.any_eq_false] using inTime)]

theorem limited_accept_of_lt {limit : Nat} (late : limit < (server.accept r s).delay) :
    server.limited.accept (r, some limit) s =
      ⟨(server.accept r s).state, limit, fun s => (none, s)⟩ := by
  unfold limited
  dsimp only
  rw [if_pos (by simpa using late)]
  rfl

/-- A program that hands on what is left of its limit ends like one whose run is cut off. By
induction on the program: what is left after a reply is the rest of the same limit. -/
theorem run_within (server : Server I σ) (p : Program I α) (limit : Option Nat) (elapsed : Nat)
    (s : σ) :
    (server.limited.run none (p.within limit) elapsed s).EndsAs
      (server.run (limit.map (elapsed + ·)) p elapsed s) := by
  induction p generalizing limit elapsed s with
  | done value => exact ⟨rfl, rfl, rfl, rfl⟩
  | ask r next ih =>
    obtain ⟨onward, goesOn, stops, replied⟩ := Program.within_ask r next limit
    have asks := server.limited.run_ask (I := I.limited) (r, limit) onward elapsed s
    rw [goesOn]
    by_cases inTime : ∀ most ∈ limit, (server.accept r s).delay ≤ most
    · have left : (limit.map (· - (server.accept r s).delay)).map
          (elapsed + (server.accept r s).delay + ·) = limit.map (elapsed + ·) := by
        cases limit with
        | none => rfl
        | some most =>
          have enough := inTime most rfl
          simp
          omega
      have rest := ih (server.serve r s).1 (limit.map (· - (server.accept r s).delay))
        (elapsed + (server.accept r s).delay) (server.serve r s).2
      rw [left] at rest
      simp only [serve, limited_accept_of_le inTime, replied] at asks
      rw [server.run_ask_of_le next (by simpa using inTime), asks]
      exact ⟨rest.value, rest.state, rest.elapsed, congrArg (r :: ·) rest.asked⟩
    · push Not at inTime
      obtain ⟨most, rfl, late⟩ := inTime
      have cut := server.run_ask_of_lt (elapsed + most) next (Nat.add_lt_add_left late elapsed)
      simp only [serve, limited_accept_of_lt late, stops] at asks
      rw [Option.map_some, cut, asks]
      exact ⟨rfl, rfl, rfl, rfl⟩

end Server

/-- An undertaking ends like its session under the limit, with the deadline in place of a value that
was cut off. -/
theorem Reconciler.run_carryOut (u : Undertaking) (r : Reconciler) (cluster : String)
    (api : (call : Remote.Request) → Program I (Remote.Reply call)) (server : Server I σ) (s : σ) :
    let run := server.limited.run none (r.carryOut cluster u api) 0 s
    let limited := server.run r.timeout ((u.session r cluster).run.interpret api) 0 s
    run.value = some (withinDeadline r.timeout limited.value) ∧ run.state = limited.state ∧
      run.elapsed = limited.elapsed ∧ run.asked.map Prod.fst = limited.asked := by
  have ends := server.run_within ((u.session r cluster).run.interpret api) r.timeout 0 s
  have same : r.timeout.map (0 + ·) = r.timeout := by simp
  have played := (server.limited.run_none
    (((u.session r cluster).run.interpret api).within r.timeout) 0 s).1
  rw [same] at ends
  rw [ends.value, Option.some.injEq] at played
  have parts : server.limited.run none (r.carryOut cluster u api) 0 s = _ :=
    server.limited.run_bind (((u.session r cluster).run.interpret api).within r.timeout)
      (fun value => .done (withinDeadline r.timeout value)) 0 s
  rw [← played] at parts
  rw [parts]
  refine ⟨rfl, ends.state, ends.elapsed, ?_⟩
  rw [← ends.asked]
  exact congrArg (List.map Prod.fst) (List.append_nil _)

/-- A deadline only cuts a run short, whatever the reconciler undertakes, however the calls on the
cluster are carried out, and whatever the replies are and when they come. If the run needs no more
time than the limit, it is the run without a limit: it ends with the same result, the same requests
and the same state, and nothing would be cut off by a server that watches the limit either.
Otherwise it fails with the limit, in as many milliseconds as an error can tell of, after a first
part of the same requests: those that had their replies in time have been carried out in full, and
the run without a limit goes on from the very state they have led to. -/
theorem deadline_only_cuts (u : Undertaking) (r : Reconciler) (cluster : String)
    (api : (call : Remote.Request) → Program I (Remote.Reply call)) (server : Server I σ) (s : σ) :
    let work := (u.session r cluster).run.interpret api
    let free := server.run none work 0 s
    let run := server.limited.run none (r.carryOut cluster u api) 0 s
    let requests := run.asked.map Prod.fst
    ∃ result, free.value = some result ∧
      ((∀ limit ∈ r.timeout, free.elapsed ≤ limit) ∧ run.value = some result ∧
          run.state = free.state ∧ run.elapsed = free.elapsed ∧ requests = free.asked ∧
          server.run r.timeout work 0 s = free ∨
        ∃ limit ∈ r.timeout, limit < free.elapsed ∧
          run.value = some (.error (.reconcile (.deadlineExceeded (min limit maxMilliseconds)))) ∧
          run.elapsed = limit ∧ requests <+: free.asked ∧
          ∃ completed request next mid now,
            server.CutsOff limit work 0 s completed request next mid now ∧
              requests = completed.map Exchange.request ++ [request] ∧
              run.state = (server.accept request mid).state) := by
  intro work free run requests
  obtain ⟨value, state, elapsed, asked⟩ := r.run_carryOut u cluster api server s
  have result := (server.run_none work 0 s).1
  refine ⟨_, result, ?_⟩
  cases limits : r.timeout with
  | none =>
    rw [limits] at value state elapsed asked
    refine .inl ⟨nofun, value.trans ?_, state, elapsed, asked, rfl⟩
    rw [result]
    rfl
  | some limit =>
    rw [limits] at value state elapsed asked
    rcases server.run_limit limit work (Nat.zero_le limit) s with ⟨fits, same⟩ | ⟨more, cut⟩
    · rw [same] at value state elapsed asked
      refine .inl ⟨by simpa using fits, value.trans ?_, state, elapsed, asked, same⟩
      rw [result]
      rfl
    · obtain ⟨completed, request, next, mid, now, cut⟩ := cut
      have first := cut.asked_prefix
      rw [← asked] at first
      rw [cut.ends] at value state elapsed asked
      exact .inr ⟨limit, rfl, more, value, elapsed, first, completed, request, next, mid, now, cut,
        asked, state⟩

/-- A listing that takes just as long as it may is still given its time. -/
example : [19, 20].map (fun limit => (Cluster.server.limited.run none
    (Reconciler.carryOut { timeout := some limit } "c1" (.plan ∅ ∅)
      (Program.request (I := Remote))) 0 { listEffects := [{ delayMs := 20 }] }).value.map
        Except.isOk) = [some false, some true] := by
  decide +kernel

/-- A program that is told when it is given up runs on a machine as on its network. -/
theorem run_limitedNetwork (p : Program Network.limited α) (elapsed : Nat) (w : World) :
    let run := World.server.run none (p.interpret Machine.limitedNetwork) elapsed w
    let onNetwork := World.network.limited.run none p elapsed w
    run.value = onNetwork.value ∧ run.state = onNetwork.state ∧
      run.elapsed = onNetwork.elapsed := by
  induction p generalizing elapsed w with
  | done value => exact ⟨rfl, rfl, rfl⟩
  | ask r next ih =>
    obtain ⟨call, limit⟩ := r
    cases limit with
    | none => exact ih _ _ _
    | some limit => exact ih _ _ _

/-- A command carries out an undertaking as its reconciler does. -/
theorem Context.run_carryOut (c : Context) (client : ServiceClient) (u : Undertaking) (w : World) :
    let run := w.run (c.carryOut client u)
    let onNetwork := World.network.limited.run none
      (c.reconciler.carryOut c.cluster u client.answer) 0 w
    run.value = onNetwork.value ∧ run.state = onNetwork.state ∧ run.elapsed = onNetwork.elapsed :=
  run_limitedNetwork ..

end HostRoster
