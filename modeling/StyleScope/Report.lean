import StyleScope.Mode.Read
import StyleScope.Scope.Validator
import StyleScope.Sheet.Read

/-!
# Reports

The whole way from two texts, a sheet and the options, to what a caller is told. The options are
read first, and a sheet that cannot be read is not validated.
-/

namespace StyleScope

/-- A diagnostic as a report shows it, with the place where it starts. -/
structure Report.Line where
  code : String
  phase : String
  severity : String
  message : String
  line : Option UInt32
  column : Option UInt32
deriving DecidableEq, Repr

inductive Report.Status where
  | ok
  | errors
deriving DecidableEq, Repr

/-- The answer to a caller. The status is `ok` when there may be warnings but no errors. -/
structure Report where
  status : Report.Status
  lines : List Report.Line
deriving DecidableEq, Repr

namespace Report

def Status.name : Status → String
  | .ok => "ok"
  | .errors => "errors"

def Line.ofDiagnostic (diagnostic : Diagnostic) : Line where
  code := diagnostic.code
  phase := diagnostic.phase.name
  severity := diagnostic.severity.name
  message := diagnostic.message
  line := diagnostic.location.map (·.start.line)
  column := diagnostic.location.map (·.start.column)

def ofDiagnostics (diagnostics : List Diagnostic) : Report where
  status := if diagnostics.any Diagnostic.isError then .errors else .ok
  lines := diagnostics.map .ofDiagnostic

end Report

/-- The mode that the options ask for: strict if they are blank. -/
def Mode.parse (options : String) : Except Diagnostic Mode :=
  if Text.isBlank options then .ok .strict
  else
    (Mode.read options).mapError fun complaint =>
      .ofReading "P002" ("Failed to parse validation options JSON: " ++ complaint.message)

/-- The report on a sheet, given as text, under the options, given as text. -/
def Report.of (sheet options : String) : Except Violation Report :=
  match Mode.parse options with
  | .error diagnostic => .ok (.ofDiagnostics [diagnostic])
  | .ok mode =>
    match Sheet.parse sheet with
    | .error diagnostic => .ok (.ofDiagnostics [diagnostic])
    | .ok sheet => do
      let diagnostics ← sheet.validate mode
      return .ofDiagnostics diagnostics.toList

end StyleScope
