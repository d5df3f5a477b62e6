import HostRoster.Command.Run
import HostRoster.World
import Std.Time.DateTime.Timestamp

/-!
# The command line

Answers what a command asks of the machine with the machine that it runs on. There
is no client for the network and none for objects: what is asked of them fails and
says so.
-/
namespace HostRoster.Main

/-- A call that may fail, with the reason when it does. -/
def attempt {α : Type} (action : IO α) : IO (Except String α) :=
  try return .ok (← action) catch e => return .error (toString e)

def serveFile : (call : FileCall) → IO call.Answer
  | .contains path => do return (← attempt (IO.FS.realPath path)).toBool
  | .read path => attempt (IO.FS.readFile path)
  | .makeDirectory path => attempt (IO.FS.createDirAll path)
  | .create path => attempt (IO.FS.writeFile path "")
  | .write path text => attempt (IO.FS.writeFile path text)
  | .append path text => attempt do (← IO.FS.Handle.mk path .append).putStr text
  | .sync path => attempt do (← IO.FS.Handle.mk path .append).flush
  | .rename source target => attempt (IO.FS.rename source target)
  | .delete path => attempt (IO.FS.removeFile path)

def unreachable : String := "no connection"

def serveObject : (call : ObjectCall) → IO call.Answer
  | .fetch .. => return Fetched.failed unreachable
  | .put .. => return .error unreachable
  | .delete .. => return .error unreachable
  | .check .. => return .error unreachable

def serveNetwork : (call : NetworkCall) → IO call.Answer
  | .send _ => return { outcome := .error unreachable }
  | .wait milliseconds => IO.sleep milliseconds.toUInt32

/-- Carries out a call over the network that is given up after some milliseconds. -/
def serveLimited (limit : Nat) : (call : NetworkCall) → IO (Option (call.Answer × Nat))
  | .send request => return some (← serveNetwork (.send request), 0)
  | .wait milliseconds => do
    serveNetwork (.wait (min milliseconds limit))
    return if milliseconds ≤ limit then some ((), milliseconds) else none

def present : IO Instant := do
  let nanos := (← Std.Time.Timestamp.now).toNanosecondsSinceUnixEpoch.val
  return ⟨nanos / 1000000000, (nanos % 1000000000).toNat⟩

/-- Random digits to the base sixteen. -/
def randomDigits (bytes : Nat) : IO (List Char) := do
  let drawn ← IO.getRandomBytes bytes.toUSize
  return drawn.toList.flatMap fun b => (World.hexText 2 b.toNat).toList

/-- An identifier of sixteen random bytes, of which a few bits name its kind. -/
def randomId : IO String := do
  let digits := ((← randomDigits 16).set 12 '4').set 16 'a'
  let part (start length : Nat) : String := .ofList ((digits.drop start).take length)
  return "-".intercalate [part 0 8, part 8 4, part 12 4, part 16 4, part 20 12]

/-- A name that no other process has. -/
def processName : IO String := do
  let machine := (← IO.getEnv "HOSTNAME").getD "localhost"
  return machine ++ "-" ++ .ofList (← randomDigits 4)

def serve (process : String) : (call : MachineCall) → IO call.Answer
  | .file call => serveFile call
  | .object call => serveObject call
  | @MachineCall.network none call => serveNetwork call
  | @MachineCall.network (some limit) call => serveLimited limit call
  | .now => present
  | .freshId => randomId
  | .processName => return process
  | .lookup name => IO.getEnv name
  | .print text => IO.print text
  | .warn text => IO.eprint text
  | .readLine => do (← IO.getStdin).getLine

def run {α : Type} (process : String) : Program Machine α → IO α
  | .done value => return value
  | .ask call next => do
    let reply ← serve process call
    run process (next reply)

end HostRoster.Main

def main (words : List String) : IO UInt32 := do
  let process ← HostRoster.Main.processName
  let code ← HostRoster.Main.run process (HostRoster.Command.answer words)
  return code.toUInt32
