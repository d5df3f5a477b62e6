import HostRoster.FileSystem
import HostRoster.Instant
import HostRoster.Network
import HostRoster.ObjectStorage
import HostRoster.Program.Limit

/-!
# The machine a command runs on

Everything a command needs from outside: files, objects, the network, the clock,
fresh identifiers, environment variables and the console.
-/
namespace HostRoster

inductive MachineCall where
  | file (call : FileCall)
  | object (call : ObjectCall)
  /-- A call over the network, which may be given up after some milliseconds. -/
  | network {limit : Option Nat} (call : NetworkCall)
  | now
  /-- A fresh identifier, different from all before. -/
  | freshId
  /-- The name of the running process, different from those of all others. -/
  | processName
  | lookup (name : String)
  | print (text : String)
  | warn (text : String)
  | readLine
deriving DecidableEq, Repr

def MachineCall.Answer : MachineCall → Type
  | file call => call.Answer
  | object call => call.Answer
  | @network none call => call.Answer
  | @network (some _) call => Option (call.Answer × Nat)
  | now => Instant
  | freshId => String
  | processName => String
  | lookup _ => Option String
  | print _ => Unit
  | warn _ => Unit
  | readLine => String

def Machine : Interface where
  Request := MachineCall
  Reply := MachineCall.Answer

namespace Machine

def file (call : FileCall) : Program Machine call.Answer :=
  Program.request (I := Machine) (.file call)

def object (call : ObjectCall) : Program Machine call.Answer :=
  Program.request (I := Machine) (.object call)

def network (call : NetworkCall) : Program Machine call.Answer :=
  Program.request (I := Machine) (@MachineCall.network none call)

/-- A call over the network by a program that may be under a limit. -/
def limitedNetwork :
    (r : Network.limited.Request) → Program Machine (Network.limited.Reply r)
  | (call, none) => do
    let reply ← network call
    return some (reply, call.time reply)
  | (call, some limit) => Program.request (I := Machine) (@MachineCall.network (some limit) call)

def now : Program Machine Instant := Program.request (I := Machine) .now

def freshId : Program Machine String := Program.request (I := Machine) .freshId

def processName : Program Machine String := Program.request (I := Machine) .processName

def lookup (name : String) : Program Machine (Option String) :=
  Program.request (I := Machine) (.lookup name)

/-- Writes a line to the output. -/
def print (line : String) : Program Machine Unit :=
  Program.request (I := Machine) (.print (line ++ "\n"))

/-- Writes a line to the messages. -/
def warn (line : String) : Program Machine Unit :=
  Program.request (I := Machine) (.warn (line ++ "\n"))

/-- Writes a question to the messages and reads the answer. -/
def question (text : String) : Program Machine String := do
  Program.request (I := Machine) (.warn text)
  Program.request (I := Machine) .readLine

def replaceFile (path text : String) : Program Machine (Except String Unit) := do
  match ← file (.create path) with
  | .error reason => return .error reason
  | .ok _ => file (.write path text)

end Machine

end HostRoster
