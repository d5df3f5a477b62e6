import HostRoster.Config
import HostRoster.Json.Printer
import HostRoster.Json.Reader
import HostRoster.Network
import HostRoster.Remote
import HostRoster.Service.Wire
import HostRoster.Text.Blank

/-!
# The client of the database service

Calls on a cluster as requests to the service. Reading is tried again when that may
help; whatever changes the cluster is sent once, and the operation that it starts is
then watched until it is done.
-/
namespace HostRoster

/-- How the service is spoken to. Times are in milliseconds. -/
structure ServiceClient where
  token : String
  endpoint : String
  operationEndpoint : String
  service : String := "managed-postgresql"
  requestTimeout : Nat := 30000
  pollInterval : Nat := 2000
  operationTimeout : Nat := 1800000
  pageSize : Nat := 100
  /-- How many pages a listing may have. -/
  pageLimit : Nat := 1000000
  /-- How many polls are made of one operation when there is no time between them. -/
  idlePolls : Nat := 1000000
deriving DecidableEq, Repr

namespace ServiceClient

/-- The address of an endpoint, without strokes at its end. -/
def address (endpoint : String) : String :=
  .ofList (Text.dropEndWhile (· == '/') endpoint.toList)

/-- A client of an endpoint, which also tells about operations. -/
def new (token endpoint : String) : ServiceClient where
  token := token
  endpoint := address endpoint
  operationEndpoint := address endpoint

def withOperationEndpoint (c : ServiceClient) (endpoint : String) : ServiceClient :=
  { c with operationEndpoint := address endpoint }

def withService (c : ServiceClient) (service : String) : ServiceClient :=
  { c with service := Text.trimWhile (· == '/') service }

def ofSettings (settings : ApiSettings) (token : String) : ServiceClient :=
  let c := (new token settings.endpoint).withService settings.service
  let c := settings.operationEndpoint.elim c c.withOperationEndpoint
  { c with
    requestTimeout := settings.timeout * 1000
    pollInterval := settings.pollInterval * 1000
    operationTimeout := settings.operationTimeout * 1000
    pageSize := settings.pageSize }

def hostsUrl (c : ServiceClient) (cluster : String) : String :=
  c.endpoint ++ "/" ++ c.service ++ "/v1/clusters/" ++ cluster ++ "/hosts"

def operationUrl (c : ServiceClient) (id : String) : String :=
  c.operationEndpoint ++ "/operations/" ++ id

def authorization (c : ServiceClient) : String × String :=
  ("authorization", "Bearer " ++ c.token)

def readRequest (c : ServiceClient) (url : String) (query : List (String × String)) :
    HttpRequest where
  method := .get
  url := url
  query := query
  headers := [c.authorization]
  timeoutMs := c.requestTimeout

def changeRequest (c : ServiceClient) (url : String) (body : Json) : HttpRequest where
  method := .post
  url := url
  headers := [("content-type", "application/json"), c.authorization]
  body := some (Json.compact body)
  timeoutMs := c.requestTimeout

/-- Seconds to wait when the service asks for a pause without saying how long. -/
def usualPause : Nat := 60

/-- The number of a header, with at most one plus sign before its digits. -/
def headerNumber? (text : String) : Option Nat :=
  let digits := if text.toList.head? = some '+' then text.toList.tail else text.toList
  if digits ≠ [] ∧ digits.all Char.isDigit then
    let n := Json.ofDigits digits
    if n < 0x10000000000000000 then some n else none
  else none

def pause (response : HttpResponse) : Nat :=
  let asked := ((response.headers.find? fun h => h.1.toLower = "retry-after").bind fun h =>
    headerNumber? h.2).getD 0
  if asked = 0 then usualPause else asked

def refusalMessage? (v : Json) : Option String := do
  let fields ← Json.fields? ["message"] v
  (← Json.orElse fields "message" none (Json.nullable? Json.text?))

/-- The error that a status stands for, if it is not a success. -/
def statusError? (cluster : String) (response : HttpResponse) : Option ApiError :=
  if response.status = 429 then some (.rateLimited (pause response))
  else if response.status = 401 ∨ response.status = 403 then
    some (.unauthenticated "Invalid or expired API token")
  else if response.status = 404 then some (.clusterNotFound cluster)
  else if 200 ≤ response.status ∧ response.status < 300 then none
  else
    some (.refused response.status
      ((Json.parse response.body >>= refusalMessage?).getD response.body))

/-- What became of a request about a cluster. -/
def accept (cluster : String) : Except String HttpResponse → Except ApiError HttpResponse
  | .error reason => .error (.network ("Request failed: " ++ reason))
  | .ok response => (statusError? cluster response).elim (.ok response) .error

def decode {α : Type} (read : Json → Option α) (response : HttpResponse) : Except ApiError α :=
  match Json.parse response.body >>= read with
  | some value => .ok value
  | none => .error (.invalidResponse
      "Failed to parse response: error decoding response body")

/-- The waits before reading is tried again. -/
def retryWaits : List Nat := [1000, 2000]

/-- Whether an error of the service may go away by itself. -/
def mayPass (e : ApiError) : Bool := (SyncError.api e).isRetryable

/-- Sends a request that only reads, again after each wait as long as that may help. -/
def readWithin {α : Type} (read : Json → Option α) (request : HttpRequest) (cluster : String) :
    List Nat → Program Network (Except ApiError α)
  | [] => do
    let delivery ← Network.send request
    return accept cluster delivery.outcome >>= decode read
  | wait :: waits => do
    let delivery ← Network.send request
    match accept cluster delivery.outcome with
    | .ok response => return decode read response
    | .error e =>
      if mayPass e then
        Network.wait wait
        readWithin read request cluster waits
      else return .error e

def fetch {α : Type} (read : Json → Option α) (request : HttpRequest) (cluster : String) :
    Program Network (Except ApiError α) :=
  readWithin read request cluster retryWaits

/-- What an operation that is done comes to. -/
def finished (o : Operation) : Except ApiError Operation :=
  match o.error with
  | some e => .error (.operationFailed o.id e.code e.message)
  | none => .ok { o with error := none }

/-- Watches an operation for at most a number of polls, after some time has gone by. -/
def watch (c : ServiceClient) (cluster : String) :
    Nat → Nat → Operation → Program Network (Except ApiError Operation)
  | polls, elapsed, o =>
    if o.done then return finished o
    else if c.operationTimeout ≤ elapsed then
      return .error (.operationTimeout o.id (elapsed / 1000))
    else
      match polls with
      | 0 => return .error (.operationTimeout o.id (elapsed / 1000))
      | polls + 1 => do
        Network.wait c.pollInterval
        let request := c.readRequest (c.operationUrl o.id) []
        match ← (fetch Operation.ofJson? request cluster).timed with
        | (.error e, _) => return .error e
        | (.ok o, took) => watch c cluster polls (elapsed + c.pollInterval + took) o

/-- How many polls there is time for. -/
def pollCount (c : ServiceClient) : Nat :=
  if c.pollInterval = 0 then c.idlePolls
  else (c.operationTimeout + c.pollInterval - 1) / c.pollInterval

def await (c : ServiceClient) (cluster : String) (o : Operation) :
    Program Network (Except ApiError Operation) :=
  c.watch cluster c.pollCount 0 o

/-- Starts an operation and watches it until it is done. -/
def change (c : ServiceClient) (cluster url : String) (body : Json) :
    Program Network (Except ApiError Operation) := do
  let delivery ← Network.send (c.changeRequest url body)
  match accept cluster delivery.outcome >>= decode Operation.ofJson? with
  | .error e => return .error e
  | .ok o => c.await cluster o

def pageQuery (c : ServiceClient) (token : Option String) : List (String × String) :=
  ("pageSize", toString c.pageSize) :: token.toList.map fun t => ("pageToken", t)

/-- Lists the hosts from a page on, for at most a number of pages. -/
def listFrom (c : ServiceClient) (cluster : String) :
    Nat → Option String → List ListedHost → Program Network (Except ApiError (List ListedHost))
  | 0, _, _ => return .error (.invalidResponse "The listing does not end")
  | pages + 1, token, hosts => do
    let request := c.readRequest (c.hostsUrl cluster) (c.pageQuery token)
    match ← fetch HostPage.ofJson? request cluster with
    | .error e => return .error e
    | .ok page =>
      let hosts := hosts ++ page.hosts
      match page.next with
      | none => return .ok hosts
      | some token => listFrom c cluster pages (some token) hosts

def listHosts (c : ServiceClient) (cluster : String) :
    Program Network (Except ApiError (List ListedHost)) :=
  c.listFrom cluster c.pageLimit none []

def changeHosts (c : ServiceClient) (cluster verb : String) (body : Json) :
    Program Network (Except ApiError Operation) :=
  c.change cluster (c.hostsUrl cluster ++ ":" ++ verb) body

/-- Creates hosts and gives the names they got. Creating no hosts asks for nothing. -/
def createHosts (c : ServiceClient) (cluster : String) (specs : List HostSpec) :
    Program Network (Except ApiError (List String)) := do
  if specs.isEmpty then return .ok []
  else return (← c.changeHosts cluster "batchCreate" (createBody specs)).map Operation.hostNames

def make (c : ServiceClient) : (call : Call) → Program Network (Except ApiError call.Answer)
  | .list cluster => do return (← c.listHosts cluster).map (List.map ListedHost.toRecord)
  | .create cluster specs => c.createHosts cluster specs
  | .update cluster u => do
    return (← c.changeHosts cluster "batchUpdate" (updateBody u)).map fun _ => ()
  | .delete cluster name => do
    return (← c.changeHosts cluster "batchDelete" (deleteBody name)).map fun _ => ()

def answer (c : ServiceClient) (call : Call) : Program Network (Except SyncError call.Answer) := do
  return (← c.make call).mapError .api

def run {α : Type} (c : ServiceClient) (session : Session α) :
    Program Network (Except SyncError α) :=
  session.run.interpret c.answer

end ServiceClient

end HostRoster
