import HostRoster.Program

/-!
# Serving programs

A server replies to requests from a state of its own. It first accepts a request,
which changes the state at once and fixes how long the reply takes; when the reply
is due it completes the request. A run under a limit is cut off as soon as a reply
would come too late: the request was accepted but is never completed.
-/
namespace HostRoster

structure Accepted (σ ρ : Type) where
  /-- The state right after the request was accepted. -/
  state : σ
  /-- Milliseconds until the reply is due. -/
  delay : Nat
  complete : σ → ρ × σ

/-- Replies to the requests of an interface. -/
structure Server (I : Interface) (σ : Type) where
  accept : (r : I.Request) → σ → Accepted σ (I.Reply r)

/-- What became of a program. -/
structure Run (I : Interface) (σ α : Type) where
  /-- The program's value, or none when the limit cut it off. -/
  value : Option α
  state : σ
  /-- Milliseconds that went by. -/
  elapsed : Nat
  /-- The requests asked, in order. -/
  asked : List I.Request

/-- Runs a program from a state after some time has gone by. -/
def Server.run {I : Interface} {σ α : Type} (server : Server I σ) (limit : Option Nat) :
    Program I α → Nat → σ → Run I σ α
  | .done value, elapsed, state => ⟨some value, state, elapsed, []⟩
  | .ask r next, elapsed, state =>
    let accepted := server.accept r state
    let due := elapsed + accepted.delay
    if limit.any (· < due) then ⟨none, accepted.state, limit.getD due, [r]⟩
    else
      let (reply, state) := accepted.complete accepted.state
      let rest := server.run limit (next reply) due state
      { rest with asked := r :: rest.asked }

end HostRoster
