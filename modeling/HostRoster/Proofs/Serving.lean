import HostRoster.Proofs.Exchange

/-!
# Programs that are served

A server that always gives a request its time plays a program to its end. Interpreting a
program by other programs leaves its value alone whenever each of them replies as the
request asks, in states that correspond to each other.
-/
namespace HostRoster

variable {I J : Interface} {α β σ τ : Type}

namespace Server

/-- The value of a program and the state it leaves behind. -/
def play (server : Server I σ) : Program I α → σ → α × σ
  | .done value, s => (value, s)
  | .ask r next, s => server.play (next (server.serve r s).1) (server.serve r s).2

theorem play_bind (server : Server I σ) (p : Program I α) (f : α → Program I β) (s : σ) :
    server.play (p >>= f) s = server.play (f (server.play p s).1) (server.play p s).2 := by
  induction p generalizing s with
  | done value => rfl
  | ask r next ih => exact ih _ _

theorem play_then {server : Server I σ} {p : Program I α} {f : α → Program I β} {s s' : σ} {value : α}
    (first : server.play p s = (value, s')) :
    server.play (p >>= f) s = server.play (f value) s' := by
  rw [play_bind, first]

theorem play_run_then {ε : Type} {server : Server I σ} {p : ExceptT ε (Program I) α}
    {f : α → ExceptT ε (Program I) β} {s s' : σ} {value : α}
    (first : server.play p.run s = (.ok value, s')) :
    server.play (p >>= f).run s = server.play (f value).run s' := by
  rw [ExceptT.run_bind, play_bind, first]

/-- A run without a limit plays the program. -/
theorem run_none (server : Server I σ) (p : Program I α) (elapsed : Nat) (s : σ) :
    (server.run none p elapsed s).value = some (server.play p s).1 ∧
      (server.run none p elapsed s).state = (server.play p s).2 := by
  induction p generalizing elapsed s with
  | done value => exact ⟨rfl, rfl⟩
  | ask r next ih => exact ih _ _ _

/-- What follows a program is asked after it, and later. -/
theorem run_bind (server : Server I σ) (p : Program I α) (f : α → Program I β) (elapsed : Nat)
    (s : σ) : server.run none (p >>= f) elapsed s =
      let first := server.run none p elapsed s
      let rest := server.run none (f (server.play p s).1) first.elapsed first.state
      { rest with asked := first.asked ++ rest.asked } := by
  induction p generalizing elapsed s with
  | done value => rfl
  | ask r next ih =>
    exact congrArg (fun run => { run with asked := r :: run.asked }) (ih _ _ _)

theorem run_then {server : Server I σ} {p : Program I α} {f : α → Program I β} {s s' : σ}
    {elapsed elapsed' : Nat} {value : α} {asked : List I.Request}
    (first : server.run none p elapsed s = ⟨some value, s', elapsed', asked⟩) :
    server.run none (p >>= f) elapsed s =
      let rest := server.run none (f value) elapsed' s'
      { rest with asked := asked ++ rest.asked } := by
  have played := (server.run_none p elapsed s).1
  rw [first, Option.some.injEq] at played
  rw [run_bind, first, played]

/-- Programs that reply to requests one after the other. -/
def replies (server : Server J σ) (f : (r : I.Request) → Program J (I.Reply r)) :
    List I.Request → σ → List (Exchange I) × σ
  | [], s => ([], s)
  | r :: rest, s =>
    let first := server.play (f r) s
    let others := server.replies f rest first.2
    (⟨r, first.1⟩ :: others.1, others.2)

/-- A server of one interface stands in for a server of another: each request of the second is
carried out by a program of the first, between states that correspond. -/
def StandsIn (server : Server J σ) (f : (r : I.Request) → Program J (I.Reply r))
    (other : Server I τ) (alike : σ → τ → Prop) : Prop :=
  ∀ r s t, alike s t → ∃ s', server.play (f r) s = ((other.serve r t).1, s') ∧
    alike s' (other.serve r t).2

variable {server : Server J σ} {other : Server I τ} {f : (r : I.Request) → Program J (I.Reply r)}
  {alike : σ → τ → Prop}

/-- By induction on the program, whose requests are carried out one after the other. -/
theorem StandsIn.play_interpret (h : server.StandsIn f other alike) (p : Program I α) {s : σ}
    {t : τ} (start : alike s t) :
    ∃ s', server.play (p.interpret f) s = ((other.play p t).1, s') ∧ alike s' (other.play p t).2 := by
  induction p generalizing s t with
  | done value => exact ⟨s, rfl, start⟩
  | ask r next ih =>
    obtain ⟨mid, plays, later⟩ := h r s t start
    obtain ⟨last, onward, ended⟩ := ih (other.serve r t).1 later
    exact ⟨last, (play_then plays).trans onward, ended⟩

/-- What holds of each reply holds of all. -/
theorem StandsIn.replies {K : Interface} (h : server.StandsIn f other alike)
    (g : (r : K.Request) → Program I (K.Reply r)) (requests : List K.Request) (s : σ) (t : τ)
    (start : alike s t) :
    ∃ s', server.replies (fun r => (g r).interpret f) requests s =
        ((other.replies g requests t).1, s') ∧ alike s' (other.replies g requests t).2 := by
  induction requests generalizing s t with
  | nil => exact ⟨s, rfl, start⟩
  | cons r rest ih =>
    obtain ⟨mid, plays, later⟩ := h.play_interpret (g r) start
    obtain ⟨last, onward, ended⟩ := ih _ _ later
    refine ⟨last, ?_, ended⟩
    simp only [Server.replies, plays, onward]

end Server

end HostRoster
