import HostRoster.Error
import HostRoster.Program

/-!
# Calls on a cluster

Everything a run does to a cluster goes through four calls. Each either gives its
answer or an error; the order of a listing means nothing.
-/
namespace HostRoster

/-- A call on the cluster of a given identifier. -/
inductive Call where
  | list (cluster : String)
  /-- Creates hosts in one go. -/
  | create (cluster : String) (specs : List HostSpec)
  | update (cluster : String) (change : HostUpdate)
  | delete (cluster : String) (name : String)
deriving DecidableEq, Repr

namespace Call

/-- What a successful call gives: the hosts listed, or the names of the hosts created. -/
def Answer : Call → Type
  | list _ => List HostRecord
  | create _ _ => List String
  | update _ _ => Unit
  | delete _ _ => Unit

def isMutation : Call → Bool
  | list _ => false
  | _ => true

end Call

/-- The calls on clusters, each answered or refused. -/
def Remote : Interface where
  Request := Call
  Reply call := Except SyncError call.Answer

/-- A program over calls that may fail. -/
abbrev Session (α : Type) := ExceptT SyncError (Program Remote) α

def listHosts (cluster : String) : Session (List HostRecord) := ExceptT.mk do
  match ← Program.request (I := Remote) (.list cluster) with
  | .ok hosts => return .ok hosts
  | .error e => return .error (.remote .list cluster e)

end HostRoster
