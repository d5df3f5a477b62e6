import HostRoster.Machine
import HostRoster.Program.Server

/-!
# A machine in memory

A machine whose files, objects and variables are values, whose answers from the
network and the console are given in advance, and whose clock stands still.
-/
namespace HostRoster

structure World where
  files : FileTree := {}
  storage : ObjectStorage := {}
  /-- The answers to the next requests over the network. -/
  responses : List (Except String HttpResponse) := []
  /-- How many milliseconds each of them needs; those that none are given for need none. -/
  delays : List Nat := []
  /-- The lines that will be typed. -/
  input : List String := []
  environment : KeyMap String String := ∅
  clock : Instant
  process : String
  /-- How many identifiers have been given out. -/
  idsGiven : Nat := 0

namespace World

/-- Digits to the base sixteen, filled up with zeros on the left. -/
def hexText (width n : Nat) : String :=
  let digits := Nat.toDigits 16 n
  .ofList (List.replicate (width - digits.length) '0' ++ digits)

/-- The identifier that is given out after `n` others. -/
def identifier (n : Nat) : String := hexText 8 n ++ "-0000-4000-8000-000000000000"

def exhausted : String := "no scripted response"

def timedOut : String := "operation timed out"

/-- What comes of a request that may take so long. -/
def deliver (timeout : Nat) (response : Except String HttpResponse) (delay : Nat) : Delivery :=
  if delay ≤ timeout then ⟨response, delay⟩ else ⟨.error timedOut, timeout⟩

def answerNetwork (w : World) : (call : NetworkCall) → call.Answer × World
  | .send request =>
    match w.responses with
    | [] => ({ outcome := .error exhausted }, w)
    | response :: rest => (deliver request.timeoutMs response (w.delays.headD 0),
        { w with responses := rest, delays := w.delays.tail })
  | .wait _ => ((), w)

def network : Server Network World where
  accept call w := ⟨w, call.time (w.answerNetwork call).1, fun w => w.answerNetwork call⟩

def answer (w : World) : (call : MachineCall) → call.Answer × World
  | .file call =>
    let (reply, files) := w.files.carryOut call
    (reply, { w with files })
  | .object call =>
    let (reply, storage) := w.storage.carryOut call
    (reply, { w with storage })
  | @MachineCall.network none call => w.answerNetwork call
  | @MachineCall.network (some limit) call =>
    let accepted := network.limited.accept (call, some limit) w
    accepted.complete accepted.state
  | .now => (w.clock, w)
  | .freshId => (identifier w.idsGiven, { w with idsGiven := w.idsGiven + 1 })
  | .processName => (w.process, w)
  | .lookup name => (w.environment.get? name, w)
  | .print _ => ((), w)
  | .warn _ => ((), w)
  | .readLine => (w.input.headD "", { w with input := w.input.tail })

def duration (w : World) : MachineCall → Nat
  | @MachineCall.network none call => (network.accept call w).delay
  | @MachineCall.network (some limit) call => (network.limited.accept (call, some limit) w).delay
  | _ => 0

def server : Server Machine World where
  accept call w := ⟨w, w.duration call, fun w => w.answer call⟩

def run {α : Type} (w : World) (program : Program Machine α) : Run Machine World α :=
  server.run none program 0 w

/-- What calls wrote to the output. -/
def output (calls : List MachineCall) : String := String.join (calls.map printed)
where
  printed : MachineCall → String
    | .print text => text
    | _ => ""

/-- What calls wrote to the messages. -/
def messages (calls : List MachineCall) : String := String.join (calls.map warned)
where
  warned : MachineCall → String
    | .warn text => text
    | _ => ""

end World

end HostRoster
