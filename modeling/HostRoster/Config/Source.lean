import HostRoster.Config.Dotenv
import HostRoster.Config.Reader
import HostRoster.Machine

/-!
# Where a configuration comes from

The file of a configuration is looked for in a directory and in those above it.
Variables of a file beside it count as if they were set, unless they are.
-/
namespace HostRoster

/-- A step of a command, which may fail. -/
abbrev Job (α : Type) := ExceptT SyncError (Program Machine) α

namespace Config

/-- The names that a file of a configuration may have, the first one first. -/
def fileNames : List String := ["hostsync.yaml", "hostsync.yml", ".hostsync.yaml"]

/-- The places where a configuration may be, as seen from a directory. -/
def candidates (start : String) : List String :=
  (Path.ancestors start).flatMap fun d => fileNames.map fun name => Path.join d name

/-- The first of some paths at which something is. -/
def firstPresent : List String → Program Machine (Option String)
  | [] => return none
  | path :: rest => do
    let found : Bool ← Machine.file (.contains path)
    if found then return some path else firstPresent rest

def find (start : String) : Program Machine (Except ConfigError String) := do
  match ← firstPresent (candidates start) with
  | some path => return .ok path
  | none => return .error (.notFound (Path.join start "hostsync.yaml"))

def load (path : String) : Program Machine (Except ConfigError Config) := do
  let found : Bool ← Machine.file (.contains path)
  if found then
    match ← Machine.file (.read path) with
    | .error reason =>
      return .error (.malformed ("Failed to read file: " ++ reason) (some path))
    | .ok text => return parse text
  else return .error (.notFound path)

end Config

namespace Dotenv

/-- The value of a variable: the one that is set, or else the one that was read. -/
def valueOf (read : KeyMap String String) (name : String) : Program Machine (Option String) := do
  let set : Option String ← Machine.lookup name
  return set.or (read.get? name)

/-- The text of a value. A variable without a value stands for nothing. -/
def expand (read : KeyMap String String) : List Piece → Program Machine String
  | [] => return ""
  | .char c :: rest => return c.toString ++ (← expand read rest)
  | .reference name :: rest => do
    let value ← valueOf read (.ofList name)
    return value.getD "" ++ (← expand read rest)

/-- Takes in bindings one after the other. The first binding of a name counts. -/
def takeIn : List Binding → KeyMap String String → Program Machine (KeyMap String String)
  | [], read => return read
  | b :: rest, read => do
    let value ← expand read b.value
    takeIn rest (if read.contains b.name then read else read.insert b.name value)

/-- The variables of the file in a directory, and what is wrong with the file. -/
def load (directory : String) : Program Machine (KeyMap String String × Option ConfigError) := do
  let path := Path.join directory ".env"
  let failure (reason : String) : ConfigError :=
    .malformed ("Failed to load .env file: " ++ reason) (some path)
  let found : Bool ← Machine.file (.contains path)
  if found then
    match ← Machine.file (.read path) with
    | .error reason => return (∅, some (failure reason))
    | .ok text =>
      let (bindings, isWhole) := read text
      return (← takeIn bindings ∅,
        if isWhole then none else some (failure "a line cannot be read"))
  else return (∅, none)

end Dotenv

def tokenVariable : String := "HOSTSYNC_API_TOKEN"

/-- The token of the service, which has to be set and not empty. -/
def apiToken (read : KeyMap String String) : Program Machine (Except ConfigError String) := do
  match ← Dotenv.valueOf read tokenVariable with
  | none => return .error (.missingVariable tokenVariable)
  | some token =>
    if token = "" then return .error (.missingVariable tokenVariable) else return .ok token

/-- The values of variables that are set or were read. -/
def Dotenv.valuesOf (read : KeyMap String String) :
    List String → Program Machine (KeyMap String String)
  | [] => return ∅
  | name :: rest => do
    let value ← Dotenv.valueOf read name
    let others ← valuesOf read rest
    return value.elim others (others.insert name)

/-- Reads the configuration at a path and puts values of the environment in place of its own. -/
def Config.loadWith (read : KeyMap String String) (path : String) :
    Program Machine (Except ConfigError Config) := do
  match ← load path with
  | .error e => return .error e
  | .ok config =>
    let values ← Dotenv.valuesOf read overrideNames
    return .ok (config.applyOverrides values.get?)

end HostRoster
