import StyleScope.Sheet.Basic

/-! # Diagnostics -/

namespace StyleScope

/-- The stage of the work that a diagnostic comes from. -/
inductive Phase where
  | parse
  | validate
deriving DecidableEq, Repr

def Phase.name : Phase → String
  | .parse => "Parse"
  | .validate => "Validate"

inductive Severity where
  | error
  | warning
deriving DecidableEq, Repr

def Severity.name : Severity → String
  | .error => "error"
  | .warning => "warning"

structure Diagnostic where
  code : String
  phase : Phase
  severity : Severity
  message : String
  /-- Where the node at fault stands, if it has a place. -/
  location : Option Location
  /-- The innermost run-time conditional around that node. -/
  enclosing : Option Location
deriving DecidableEq, Repr

namespace Diagnostic

/-- A text that cannot be read: an error without a place. -/
def ofReading (code message : String) : Diagnostic :=
  ⟨code, .parse, .error, message, none, none⟩

/-- Something found in a sheet, outside any conditional. -/
def ofValidation (code : String) (severity : Severity) (message : String) (location : Location) :
    Diagnostic :=
  ⟨code, .validate, severity, message, some location, none⟩

def withEnclosing (diagnostic : Diagnostic) (enclosing : Option Location) : Diagnostic :=
  { diagnostic with enclosing }

def isError (diagnostic : Diagnostic) : Bool := diagnostic.severity = .error

/-- The diagnostic as one line for a reader: `[phase:code] severity: message (at line:column)`. -/
def text (diagnostic : Diagnostic) : String :=
  "[" ++ diagnostic.phase.name ++ ":" ++ diagnostic.code ++ "] " ++ diagnostic.severity.name ++
    ": " ++ diagnostic.message ++
    match diagnostic.location with
    | some location => " (at " ++ location.text ++ ")"
    | none => ""

end Diagnostic

end StyleScope
