import HostRoster.Config.Check
import HostRoster.Config.Fingerprint
import HostRoster.Config.Source
import HostRoster.Errand
import HostRoster.Service.Client
import HostRoster.Store.Backend

/-!
# What a command works with

A command loads the configuration, checks it, and opens the store that it names.
Commands that look at the cluster or change it also need the token of the service.
-/
namespace HostRoster

structure Context where
  config : Config
  backend : Backend
  /-- The variables that were read from a file. -/
  read : KeyMap String String

namespace Context

def cluster (c : Context) : String := c.config.cluster.id

def configHash (c : Context) : String := Fingerprint.ofCluster c.cluster c.config.hosts

def target (c : Context) : Target where
  cluster := c.cluster
  name := c.config.cluster.name
  environment := c.config.cluster.environment
  configHash := c.configHash
  declaredKeys := c.config.hosts.keys

def reconciler (c : Context) : Reconciler where
  guardrails := some c.config.guardrailsOrNone
  timeout := c.config.reconcileTimeout.map (· * 1000)
  configHash := c.configHash

/-- Carries out an undertaking by way of the service. -/
def carryOut (c : Context) (client : ServiceClient) (u : Undertaking) :
    Program Machine (Except SyncError u.Report) :=
  (c.reconciler.carryOut c.cluster u client.answer).interpret Machine.limitedNetwork

def serve (c : Context) (client : ServiceClient) :
    (call : ErrandCall) → Program Machine call.Answer
  | .store call => c.backend.perform call
  | .reconcile prior => c.carryOut client (.reconcile c.config.hosts prior)
  | .destroy prior => c.carryOut client (.destroy prior)
  | .now => Machine.now

def runErrand {α : Type} (c : Context) (client : ServiceClient)
    (errand : Program Errands (Except SyncError α)) : Job α :=
  ExceptT.mk (errand.interpret (c.serve client))

end Context

namespace Job

def ofConfig {α : Type} (program : Program Machine (Except ConfigError α)) : Job α :=
  ExceptT.mk do return (← program).mapError .config

def ofStore {α : Type} (program : Program Machine (Except StateError α)) : Job α :=
  ExceptT.mk do return (← program).mapError .state

def ofResult {α : Type} (result : Except SyncError α) : Job α := ExceptT.mk (pure result)

def print (text : String) : Job Unit := ExceptT.lift (Machine.print text)

def warn (text : String) : Job Unit := ExceptT.lift (Machine.warn text)

end Job

namespace Context

/-- The configuration that is given, or the one that is found. -/
def resolve (path : Option String) : Job String :=
  match path with
  | some path => return path
  | none => ExceptT.mk do return (← Config.find ".").mapError .config

/-- Loads and checks the configuration and opens its store. -/
def load (path : Option String) : Job Context := do
  let file ← resolve path
  let directory := Path.directory file
  let (read, failure) ← ExceptT.lift (Dotenv.load directory)
  failure.forM fun e => throw (SyncError.config e)
  let config ← Job.ofConfig (Config.loadWith read file)
  let _ ← Job.ofResult (config.validate.mapError .config)
  let backend ← Job.ofResult (Backend.ofSettings config.state directory)
  return { config, backend, read }

def client (c : Context) : Job ServiceClient := do
  return .ofSettings c.config.api (← Job.ofConfig (apiToken c.read))

def loadWithClient (path : Option String) : Job (Context × ServiceClient) := do
  let c ← load path
  return (c, ← c.client)

def recordedHosts (c : Context) (client : ServiceClient) : Job HostMap := do
  return (← c.runErrand client (Errand.loadState c.target)).hostMap

def makePlan (c : Context) (client : ServiceClient) : Job HostPlan := do
  let prior ← recordedHosts c client
  ExceptT.mk (c.carryOut client (.plan c.config.hosts prior))

end Context

end HostRoster
