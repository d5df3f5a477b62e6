import HostRoster.Config
import HostRoster.Store.Files
import HostRoster.Store.Objects

/-!
# The store of a configuration
-/
namespace HostRoster

inductive Backend where
  | files (store : FileStore)
  | objects (store : ObjectStore)
deriving DecidableEq, Repr

namespace Backend

def kind : Backend → StateBackend
  | files _ => .files
  | objects _ => .s3

def carryOut : Backend → (call : DocumentCall) → Program Machine call.Answer
  | files store => store.carryOut
  | objects store => store.carryOut

def perform (b : Backend) (call : StoreCall) : Program Machine (Except StateError call.Answer) :=
  call.perform.run.interpret b.carryOut

/-- The store that settings ask for. Paths are seen from the directory of the configuration. -/
def ofSettings (settings : StateSettings) (directory : String) : Except SyncError Backend :=
  match settings.backend with
  | .files =>
    .ok (.files (match settings.path with
      | some path => .ofStatePath (Path.join directory path)
      | none => .ofDirectory (Path.join directory FileStore.usualDirectory)))
  | .s3 =>
    match settings.bucket with
    | none => .error (.internal "S3 bucket not configured")
    | some bucket =>
      ((ObjectStore.make bucket settings.keyPrefix).map Backend.objects).mapError .state

end Backend

end HostRoster
