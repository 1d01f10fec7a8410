import StyleScope.Sheet.Basic

/-!
# Walking a style sheet

A walk enters every node and every branch before what is inside and leaves it after that, in
document order. A visitor may skip the inside of what it enters; it leaves it all the same. A
recorder is a visitor that writes down what it is called for.
-/

namespace StyleScope

/-- What a walk does after it has entered something. -/
inductive Action where
  | descend
  | skipChildren
deriving DecidableEq, Repr

/-- What a walk enters and leaves. -/
inductive Item where
  | node (node : Node)
  | branch (branch : Branch)

/-- What is done on the way. What is not given lets the walk pass. -/
structure Visitor (m : Type → Type) [Monad m] where
  enter : Item → m Action := fun _ => pure .descend
  leave : Item → m Unit := fun _ => pure ()
  value : Value → m Unit := fun _ => pure ()

namespace Visitor

variable {m : Type → Type} [Monad m]

/-- Enters an item, does what is to be done inside unless the visitor skips it, and leaves it. -/
def visit (visitor : Visitor m) (item : Item) (inside : m Unit) : m Unit := do
  match ← visitor.enter item with
  | .descend => inside
  | .skipChildren => pure ()
  visitor.leave item

def walkValues (visitor : Visitor m) (values : List Value) : m Unit := values.forM visitor.value

mutual

def walkNode (visitor : Visitor m) : Node → m Unit
  | .conditionalBlock branches location =>
    visitor.visit (.node (.conditionalBlock branches location)) (visitor.walkBranches branches)
  | .definition name values location =>
    visitor.visit (.node (.definition name values location)) (visitor.walkValues values)
  | .atRule name params none location =>
    visitor.visit (.node (.atRule name params none location)) (visitor.walkValues params)
  | .atRule name params (some nodes) location =>
    visitor.visit (.node (.atRule name params (some nodes) location)) do
      visitor.walkValues params
      visitor.walkNodes nodes
  | .ruleset selectors children location =>
    visitor.visit (.node (.ruleset selectors children location)) (visitor.walkNodes children)
  | .declaration property values location =>
    visitor.visit (.node (.declaration property values location)) (visitor.walkValues values)

def walkBranch (visitor : Visitor m) : Branch → m Unit
  | ⟨kind, condition, children, location⟩ =>
    visitor.visit (.branch ⟨kind, condition, children, location⟩) (visitor.walkNodes children)

def walkNodes (visitor : Visitor m) : List Node → m Unit
  | [] => pure ()
  | node :: nodes => do
    visitor.walkNode node
    visitor.walkNodes nodes

def walkBranches (visitor : Visitor m) : List Branch → m Unit
  | [] => pure ()
  | branch :: branches => do
    visitor.walkBranch branch
    visitor.walkBranches branches

end

def walkSheet (visitor : Visitor m) (sheet : Sheet) : m Unit := visitor.walkNodes sheet.nodes

end Visitor

/-! ## Recording a walk -/

inductive Event where
  | enter (item : Item)
  | leave (item : Item)
  | value (value : Value)

/-- The steps of a walk so far, and how many of them entered something. -/
structure Log where
  events : Array Event := #[]
  entered : Nat := 0

namespace Visitor

/-- Writes down every step; what it answers depends on the item and on all that came before. -/
def recorder (answer : Log → Item → Action) : Visitor (StateM Log) where
  enter item := modifyGet fun log =>
    (answer log item, ⟨log.events.push (.enter item), log.entered + 1⟩)
  leave item := modify fun log => { log with events := log.events.push (.leave item) }
  value value := modify fun log => { log with events := log.events.push (.value value) }

/-- Writes down the values only, and descends everywhere. -/
def valueRecorder : Visitor (StateM (Array Value)) where
  value value := modify (·.push value)

end Visitor

end StyleScope
