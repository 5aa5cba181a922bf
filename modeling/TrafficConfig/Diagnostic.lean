import TrafficConfig.Error

/-!
# Diagnostics

What an operation reports to its caller: errors and warnings, each perhaps with the path of the
attribute it is about.
-/

namespace TrafficConfig

/-- How serious a diagnostic is. -/
inductive Severity where
  | invalid
  | error
  | warning
  deriving DecidableEq

/-- A report. -/
structure Diagnostic where
  severity : Severity
  summary : String
  detail : String
  /-- The attribute that the report is about. -/
  path : Option Path
  deriving DecidableEq

namespace Diagnostic

def error (summary detail : String) : Diagnostic := ⟨.error, summary, detail, none⟩

def warning (summary detail : String) : Diagnostic := ⟨.warning, summary, detail, none⟩

/-- The same report about an attribute. -/
def atPath (d : Diagnostic) (path : Path) : Diagnostic := { d with path := some path }

def isError (d : Diagnostic) : Bool := d.severity = .error

/-- An error as a report without details. -/
def ofError (e : ConfigError) : Diagnostic := error e.message ""

/-- Whether one of the reports is an error. -/
def anyError (ds : List Diagnostic) : Bool := ds.any isError

end Diagnostic

end TrafficConfig
