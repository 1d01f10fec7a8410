/-!
# Style sheets

The tree of a style sheet after the conditionals that are known at compile time have been decided:
every conditional block that is left chooses its branch at run time. Nodes say where they stand in
the source.
-/

namespace StyleScope

/-! ## Places in the source -/

/-- A point of the source: its line, its column, and its byte offset from the start. -/
structure Position where
  line : UInt32
  column : UInt32
  offset : UInt32
deriving DecidableEq, Repr

/-- The stretch of the source from `start` to `stop`. -/
structure Location where
  start : Position
  stop : Position
deriving DecidableEq, Repr

/-- Where the stretch starts, as `line:column`. -/
def Location.text (location : Location) : String :=
  location.start.line.toNat.repr ++ ":" ++ location.start.column.toNat.repr

/-! ## The tree -/

/-- One term of a value list, such as `12px` or `RED`. -/
structure Value where
  text : String
  location : Option Location
deriving DecidableEq, Repr

/-- Which part of a conditional block a branch is: `@if`, `@elseif` or `@else`. -/
inductive Branch.Kind where
  | opening
  | alternative
  | fallback
deriving DecidableEq, Repr

mutual

inductive Node where
  /-- A chain of `@if`, `@elseif` and `@else`. -/
  | conditionalBlock (branches : List Branch) (location : Option Location)
  /-- A constant: `@def NAME values;`. -/
  | definition (name : String) (values : List Value) (location : Location)
  /-- Any other `@name params`, with its braces if it has some. -/
  | atRule (name : String) (params : List Value) (block : Option (List Node)) (location : Location)
  | ruleset (selectors : List String) (children : List Node) (location : Option Location)
  | declaration (property : String) (values : List Value) (location : Option Location)

/-- One branch of a conditional block. The `condition` is its raw text, absent for `@else`. -/
structure Branch where
  kind : Branch.Kind
  condition : Option String
  children : List Node
  location : Location

end

/-- A style sheet: the name of its source and its nodes in document order. -/
structure Sheet where
  sourceName : String
  nodes : List Node

/-! ## Kinds and names -/

/-- The name of a kind of branch, as written in a sheet. -/
def Branch.Kind.name : Branch.Kind → String
  | .opening => "if"
  | .alternative => "elseif"
  | .fallback => "else"

def Branch.Kind.all : List Branch.Kind := [.opening, .alternative, .fallback]

namespace Node

inductive Kind where
  | conditionalBlock
  | definition
  | atRule
  | ruleset
  | declaration
deriving DecidableEq, Repr

/-- The name of a kind of node, as written in a sheet. -/
def Kind.name : Kind → String
  | .conditionalBlock => "conditionalBlock"
  | .definition => "definition"
  | .atRule => "unknownAtRule"
  | .ruleset => "ruleset"
  | .declaration => "declaration"

def Kind.all : List Kind := [.conditionalBlock, .definition, .atRule, .ruleset, .declaration]

def kind : Node → Kind
  | .conditionalBlock .. => .conditionalBlock
  | .definition .. => .definition
  | .atRule .. => .atRule
  | .ruleset .. => .ruleset
  | .declaration .. => .declaration

def location : Node → Option Location
  | .conditionalBlock _ location => location
  | .definition _ _ location => some location
  | .atRule _ _ _ location => some location
  | .ruleset _ _ location => location
  | .declaration _ _ location => location

end Node

end StyleScope
