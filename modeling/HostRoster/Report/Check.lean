import HostRoster.Config.Check
import HostRoster.Report.Message

/-!
# Showing a check

The errors of a configuration and, if they are asked for, its warnings.
-/
namespace HostRoster.Report

def checkText (r : CheckReport) (showWarnings : Bool) : String :=
  (if r.isValid then lines [Level.success.mark ++ " Configuration is valid."]
    else lines [Level.error.mark ++ " Configuration has " ++ toString r.errors.length ++
      " error(s):"]) ++
  bullets (r.errors.map Violation.text) ++
  if showWarnings && !r.warnings.isEmpty then
    lines ["", Level.warning.mark ++ " Warnings:"] ++ bullets r.warnings
  else ""

def check (format : Format) (r : CheckReport) (showWarnings : Bool) : String :=
  match format with
  | .text => checkText r showWarnings
  | .json => Json.indented (.sortedObj [("valid", .bool r.isValid),
      ("errors", .ofStrings (r.errors.map Violation.text)), ("warnings", .ofStrings r.warnings)])

end HostRoster.Report
