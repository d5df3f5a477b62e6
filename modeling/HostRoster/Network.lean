import HostRoster.Program

/-!
# Requests over the network

A request over the network is answered by a response of any status, or it cannot be
sent at all. Either takes its time. Waiting is asked for like everything else.
-/
namespace HostRoster

inductive HttpMethod where
  | get
  | post
deriving DecidableEq, Repr

def HttpMethod.label : HttpMethod → String
  | get => "GET"
  | post => "POST"

/-- A request. The pairs of its query are as yet unencoded. -/
structure HttpRequest where
  method : HttpMethod
  url : String
  query : List (String × String) := []
  headers : List (String × String) := []
  body : Option String := none
  /-- Milliseconds that the request may take. -/
  timeoutMs : Nat
deriving DecidableEq, Repr

structure HttpResponse where
  status : Nat
  headers : List (String × String) := []
  body : String := ""
deriving DecidableEq, Repr

/-- What comes of a request: a response, or the reason why there is none. -/
structure Delivery where
  outcome : Except String HttpResponse
  /-- Milliseconds since the request was sent. -/
  took : Nat := 0

inductive NetworkCall where
  | send (request : HttpRequest)
  | wait (milliseconds : Nat)
deriving DecidableEq, Repr

def NetworkCall.Answer : NetworkCall → Type
  | send _ => Delivery
  | wait _ => Unit

/-- The time that a call has taken. -/
def NetworkCall.time : (call : NetworkCall) → call.Answer → Nat
  | send _, delivery => delivery.took
  | wait ms, _ => ms

def Network : Interface where
  Request := NetworkCall
  Reply := NetworkCall.Answer

namespace Network

def send (request : HttpRequest) : Program Network Delivery :=
  Program.request (I := Network) (.send request)

def wait (milliseconds : Nat) : Program Network Unit :=
  Program.request (I := Network) (.wait milliseconds)

end Network

/-- A program that also tells the time that its calls have taken, with the time spent before. -/
def Program.timedFrom {α : Type} : Program Network α → Nat → Program Network (α × Nat)
  | .done value, spent => .done (value, spent)
  | .ask call next, spent => .ask call fun reply => (next reply).timedFrom (spent + call.time reply)

def Program.timed {α : Type} (p : Program Network α) : Program Network (α × Nat) := p.timedFrom 0

end HostRoster
