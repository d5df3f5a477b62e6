import HostRoster.Program.Server

/-!
# Programs under a limit

A program under a limit hands on what is left of it with every request. A request whose
reply is not there by then is given up: it has been asked, and nobody waits for what
becomes of it.
-/
namespace HostRoster

variable {I : Interface} {α σ : Type}

/-- The requests of an interface, each with the milliseconds after which it is given up, if ever.
A reply comes with the time that it took. -/
def Interface.limited (I : Interface) : Interface where
  Request := I.Request × Option Nat
  Reply r := Option (I.Reply r.1 × Nat)

/-- Runs a program until its limit is used up. It then has no value. -/
def Program.within : Program I α → Option Nat → Program I.limited (Option α)
  | .done value, _ => .done (some value)
  | .ask r next, limit => .ask (I := I.limited) (r, limit) fun
    | none => .done none
    | some (reply, took) => (next reply).within (limit.map (· - took))

/-- Replies as a server does to requests that may be given up. -/
def Server.limited (server : Server I σ) : Server I.limited σ where
  accept r s :=
    let accepted := server.accept r.1 s
    if r.2.any (· < accepted.delay) then ⟨accepted.state, r.2.getD 0, fun s => (none, s)⟩
    else ⟨accepted.state, accepted.delay, fun s =>
      let (reply, s) := accepted.complete s
      (some (reply, accepted.delay), s)⟩

end HostRoster
