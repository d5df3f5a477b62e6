import HostRoster.Report.Message

/-!
# Commands

What can be asked for on the command line.
-/
namespace HostRoster

inductive StateCommand where
  | show
  | lock (holder : Option String)
  | unlock (holder : Option String) (force : Bool)
deriving DecidableEq, Repr

inductive Command where
  /-- Writes a first configuration into a directory. -/
  | init (directory : String) (force : Bool)
  | validate (warnings : Bool)
  | plan
  /-- Brings the cluster to its declaration, with or without asking first. -/
  | apply (approved : Bool)
  | status
  | drift
  | destroy (approved : Bool)
  | state (command : StateCommand)
deriving DecidableEq, Repr

/-- A command and what goes with every command. -/
structure Invocation where
  /-- The path of the configuration, if one is given. -/
  configPath : Option String
  format : Format
  command : Command
deriving DecidableEq, Repr

end HostRoster
