import HostRoster.Error
import HostRoster.Instant

/-!
# Locks

Only one run at a time may own the record of a cluster. A lock is a record of its own
that names its holder and the time it expires; once expired it may be taken over.
-/
namespace HostRoster

structure Lock where
  id : String
  holder : String
  acquiredAt : Instant
  expiresAt : Instant
deriving DecidableEq, Repr

namespace Lock

/-- Seconds after which a lock expires. -/
def lifetime : Nat := 300

def new (now : Instant) (id holder : String) : Lock :=
  ⟨id, holder, now, now.addSeconds lifetime⟩

/-- A lock is expired once its time has passed; at that very instant it still holds. -/
def isExpired (l : Lock) (now : Instant) : Bool := l.expiresAt.isBefore now

/-- Whole seconds until a lock expires. -/
def secondsLeft (l : Lock) (now : Instant) : Int := max 0 (now.secondsUntil l.expiresAt)

def text (l : Lock) (now : Instant) : String :=
  l.id ++ " held by " ++ l.holder ++ " since " ++ l.acquiredAt.withOffset ++
    if l.isExpired now then " (expired)" else " (" ++ toString (l.secondsLeft now) ++ "s left)"

/-- The error that names the holder of a lock. -/
def heldError (l : Lock) : StateError := .lockedByOther l.holder l.acquiredAt.withOffset

/-- Refuses a lock that is held. -/
def ensureFree (existing : Option Lock) (now : Instant) : Except StateError Unit :=
  match existing with
  | none => .ok ()
  | some l => if l.isExpired now then .ok () else .error l.heldError

/-- Takes the lock, given the one that is stored, a fresh identifier, and a name to use when
the holder gives none. -/
def claim (existing : Option Lock) (now : Instant) (id holder fallback : String) :
    Except StateError Lock := do
  ensureFree existing now
  return new now id (if holder = "" then fallback else holder)

end Lock

end HostRoster
