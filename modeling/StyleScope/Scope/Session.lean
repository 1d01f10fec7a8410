import StyleScope.Scope.Validator

/-!
# Sessions with one validator

A validator may be used again and again: for runs, which start with nothing open, for walks, which
keep what is open, and for single steps of a walk.
-/

namespace StyleScope

inductive Validator.Step where
  | run (sheet : Sheet)
  | walk (nodes : List Node)
  | enter (item : Item)
  | leave (item : Item)
  | value (value : Value)

namespace Validator.Step

variable {S : Type} [Sink S]

/-- Does a step. Only entering an item gives an answer. -/
def perform : Step → Validation S (Option Action)
  | .run sheet => do
    Validator.run sheet
    return none
  | .walk nodes => do
    Validator.walk nodes
    return none
  | .enter item => return some (← visitor.enter item)
  | .leave item => do
    visitor.leave item
    return none
  | .value v => do
    visitor.value v
    return none

/-- Does steps one after the other up to the first violation. -/
def performAll (steps : List Step) : Validation S (List (Option Action)) := steps.mapM perform

end Validator.Step

end StyleScope
