import HostRoster.Json.Printer

/-!
# Messages

Every report is written for people or as JSON. What it says about the outcome
stands behind a mark: a tick, a warning sign or a cross.
-/
namespace HostRoster

/-- Who a report is written for. -/
inductive Format where
  | text
  | json
deriving DecidableEq, Repr

/-- How a message is meant. -/
inductive Level where
  | success
  | warning
  | error
deriving DecidableEq, Repr

namespace Level

def label : Level → String
  | success => "success"
  | warning => "warning"
  | error => "error"

def ofLabel? (text : String) : Option Level :=
  [success, warning, error].find? fun l => l.label == text

def mark : Level → String
  | success => "✓"
  | warning => "⚠"
  | error => "✗"

end Level

namespace Report

/-- Lines, each with its line feed. -/
def lines (texts : List String) : String := String.join (texts.map (· ++ "\n"))

/-- A line for each text, behind an indented dash. -/
def bullets (texts : List String) : String := lines (texts.map ("   - " ++ ·))

def message (format : Format) (level : Level) (text : String) : String :=
  match format with
  | .text => level.mark ++ " " ++ text
  | .json => Json.indented (.sortedObj [("status", .str level.label), ("message", .str text)])

end Report

end HostRoster
