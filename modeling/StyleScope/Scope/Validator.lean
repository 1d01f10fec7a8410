import StyleScope.Diagnostic.Encode
import StyleScope.Walk.Record

/-!
# Constants inside run-time conditionals

A constant, or an `@external` at-rule, cannot depend on a branch that is chosen at run time. The
validator keeps the branches that are open and reports each such thing that it enters inside one.
The mode says whether that is an error or a warning.
-/

namespace StyleScope

/-! ## Modes -/

/-- How findings are treated: as errors, or as warnings. -/
inductive Mode where
  | strict
  | lenient
deriving DecidableEq, Repr

namespace Mode

def ofLenient (lenient : Bool) : Mode := if lenient then .lenient else .strict

def isLenient (mode : Mode) : Bool := mode = .lenient

end Mode

/-! ## Findings -/

/-- A thing that must not stand inside a run-time conditional. -/
inductive Finding where
  | definition
  | external
deriving DecidableEq, Repr

namespace Finding

def code : Finding → String
  | .definition => "R001"
  | .external => "R002"

def subject : Finding → String
  | .definition => "a constant"
  | .external => "an @external at-rule"

def message (finding : Finding) : Mode → String
  | .strict =>
    "You cannot define " ++ finding.subject ++
      " inside a conditional block that will be evaluated at runtime."
  | .lenient =>
    "You should not define " ++ finding.subject ++
      " inside a conditional block that will be evaluated at runtime. " ++
      "This will be disallowed in a future release."

end Finding

/-! ## The validator -/

/-- The name of the at-rule that declares what is defined elsewhere. -/
def externalName : String := "external"

/-- A breach of the rule that branches are left in the reverse order of their entering. -/
inductive Violation where
  | noneOpen (left : Location)
  | otherOpen (left innermost : Location)
  | stillOpen (count : Nat)
deriving DecidableEq, Repr

def Violation.message : Violation → String
  | .noneOpen left =>
    "left conditional rule at " ++ left.text ++ " with no open scope; traversal is unbalanced"
  | .otherOpen left innermost =>
    "left conditional rule at " ++ left.text ++ " but innermost open scope is at " ++ innermost.text
  | .stillOpen count => count.repr ++ " runtime conditional scope(s) still open after traversal"

/-- The state of a validator that reports to a sink of type `S`. -/
structure Validator (S : Type) where
  mode : Mode
  /-- The places of the branches that are open, innermost first. -/
  scopes : List Location
  sink : S

/-- What is done with a validator, until a violation. -/
abbrev Validation (S : Type) := StateT (Validator S) (Except Violation)

namespace Validator

variable {S : Type} [Sink S]

/-- A validator with nothing open. -/
def start (mode : Mode) (sink : S) : Validator S := ⟨mode, [], sink⟩

def depth (validator : Validator S) : Nat := validator.scopes.length

def severity : Mode → Severity
  | .strict => .error
  | .lenient => .warning

def diagnostic (mode : Mode) (finding : Finding) (location enclosing : Location) : Diagnostic :=
  let d := Diagnostic.ofValidation finding.code (severity mode) (finding.message mode) location
  d.withEnclosing (some enclosing)

/-- Reports a finding if a branch is open. -/
def report (validator : Validator S) (finding : Finding) (location : Location) : Validator S :=
  match validator.scopes with
  | [] => validator
  | innermost :: _ =>
    { validator with
      sink := Sink.report validator.sink (diagnostic validator.mode finding location innermost) }

/-- Enters an item. The values of a definition are of no interest. -/
def enter (validator : Validator S) : Item → Action × Validator S
  | .branch branch => (.descend, { validator with scopes := branch.location :: validator.scopes })
  | .node (.definition _ _ location) => (.skipChildren, validator.report .definition location)
  | .node (.atRule name _ _ location) =>
    (.descend, if name = externalName then validator.report .external location else validator)
  | .node _ => (.descend, validator)

/-- Leaves an item. Of branches it must be the innermost one that is open. -/
def leave (validator : Validator S) : Item → Except Violation (Validator S)
  | .node _ => .ok validator
  | .branch branch =>
    match validator.scopes with
    | [] => .error (.noneOpen branch.location)
    | innermost :: outer =>
      if innermost = branch.location then .ok { validator with scopes := outer }
      else .error (.otherOpen branch.location innermost)

def visitor : Visitor (Validation S) where
  enter item := modifyGet (·.enter item)
  leave item := fun validator => return ((), ← validator.leave item)

/-- Walks nodes with the branches that are open. -/
def walk (nodes : List Node) : Validation S Unit := visitor.walkNodes nodes

/-- Closes every branch and walks a sheet, which leaves none open. -/
def run (sheet : Sheet) : Validation S Unit := do
  modify fun validator => { validator with scopes := [] }
  visitor.walkSheet sheet
  let validator ← get
  if validator.scopes ≠ [] then throw (.stillOpen validator.depth)

def name : String := "validate-runtime-conditionals"

end Validator

/-- The diagnostics for a sheet. A violation cannot arise, as a walk leaves what it enters. -/
def Sheet.validate (sheet : Sheet) (mode : Mode) : Except Violation Diagnostics := do
  let ((), validator) ← (Validator.run sheet).run (.start mode Diagnostics.empty)
  return validator.sink

end StyleScope
