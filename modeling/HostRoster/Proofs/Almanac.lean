import HostRoster.Proofs.Serving
import HostRoster.Store
import HostRoster.World
import Mathlib.Logic.Function.Basic

/-!
# Clocks and identifiers given in advance

Two machines can be compared only if their clocks show the same and they give out the same
identifiers. An almanac says what a machine is told each time it asks. Documents that are
no more than two texts are the measure of every store that is told the same.
-/
namespace HostRoster

/-- What the clock shows, and which identifiers and process names are given out, after a number of
such questions. -/
structure Almanac where
  time : Nat → Instant
  id : Nat → String
  process : Nat → String

namespace Almanac

/-- Answers a call of a machine in memory, after a number of questions to the almanac. -/
def answer (a : Almanac) (call : MachineCall) (m : World × Nat) : call.Answer × World × Nat :=
  match call with
  | .now => (a.time m.2, m.1, m.2 + 1)
  | .freshId => (a.id m.2, m.1, m.2 + 1)
  | .processName => (a.process m.2, m.1, m.2 + 1)
  | call => ((m.1.answer call).1, (m.1.answer call).2, m.2)

/-- A machine in memory that goes by the almanac. -/
def machine (a : Almanac) : Server Machine (World × Nat) where
  accept call m := ⟨m, 0, a.answer call⟩

/-- Answers a call on two texts. -/
def lookUp (a : Almanac) (call : DocumentCall) (p : (Document → Option String) × Nat) :
    call.Answer × (Document → Option String) × Nat :=
  match call with
  | .read d => (.ok (p.1 d), p)
  | .write d text => (.ok (), Function.update p.1 d (some text), p.2)
  | .remove d => (.ok (), Function.update p.1 d none, p.2)
  | .contains d => (.ok (p.1 d).isSome, p)
  | .now => (a.time p.2, p.1, p.2 + 1)
  | .freshId => (a.id p.2, p.1, p.2 + 1)
  | .processName => (a.process p.2, p.1, p.2 + 1)

/-- Two texts as documents, which are read and replaced without fail. -/
def papers (a : Almanac) : Server Documents ((Document → Option String) × Nat) where
  accept call p := ⟨p, 0, a.lookUp call⟩

section Calls
variable (a : Almanac) (w : World) (asked : Nat)

theorem play_file (call : FileCall) : a.machine.play (Machine.file call) (w, asked) =
    ((w.files.carryOut call).1, { w with files := (w.files.carryOut call).2 }, asked) := rfl

theorem play_object (call : ObjectCall) : a.machine.play (Machine.object call) (w, asked) =
    ((w.storage.carryOut call).1, { w with storage := (w.storage.carryOut call).2 }, asked) := rfl

end Calls

end Almanac

end HostRoster
