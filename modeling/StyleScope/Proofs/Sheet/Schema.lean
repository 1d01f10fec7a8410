import StyleScope.Proofs.Json.Members
import StyleScope.Sheet.Decode

/-!
# The documented form of a sheet

Every record is written as an object. A field without a default must be there; a field that holds
something optional may be missing or `null`; a list with a default may be missing. No field comes
twice in an object, and members that are no fields may hold anything.
-/

namespace StyleScope

open Json (Required Optional Member)

namespace Json

/-- An object with such members. -/
def IsObject (p : List Member → Prop) (json : Json) : Prop := ∃ members, json = .object members ∧ p members

/-- A list of such items. -/
def IsList (p : List Json → Prop) (json : Json) : Prop := ∃ items, json = .list items ∧ p items

/-- Something optional, with `null` for nothing. -/
def IsOption {α : Type} (p : α → Json → Prop) : Option α → Json → Prop
  | none, json => json = .null
  | some value, json => p value json

end Json

open Json (IsObject IsList IsOption)

/-! ## Places and values -/

/-- A natural number of 32 bits is spelled as an integer, which `-0` and `1.0` are not. -/
def WordMeantBy (n : UInt32) (json : Json) : Prop := json = .integer n.toNat

def StringMeantBy (s : String) (json : Json) : Prop := json = .string s

def Position.MeantBy (position : Position) : Json → Prop :=
  IsObject fun members =>
    Required members "line" (WordMeantBy position.line) ∧
    Required members "column" (WordMeantBy position.column) ∧
    Required members "offset" (WordMeantBy position.offset)

def Location.MeantBy (location : Location) : Json → Prop :=
  IsObject fun members =>
    Required members "begin" location.start.MeantBy ∧ Required members "end" location.stop.MeantBy

/-- The place of a record that may be without one. -/
def OptionalLocation (location : Option Location) (members : List Member) : Prop :=
  Optional members "location" (location = none) (IsOption Location.MeantBy location)

def Value.MeantBy (value : Value) : Json → Prop :=
  IsObject fun members =>
    Required members "text" (StringMeantBy value.text) ∧ OptionalLocation value.location members

/-- The values of a record under a name, none if it is missing. -/
def OptionalValues (name : String) (values : List Value) (members : List Member) : Prop :=
  Optional members name (values = []) (IsList (List.Forall₂ Value.MeantBy values))

/-! ## Nodes -/

def Branch.Kind.MeantBy : Branch.Kind → Json → Prop
  | .opening => StringMeantBy "if"
  | .alternative => StringMeantBy "elseif"
  | .fallback => StringMeantBy "else"

/-- An object that names the kind of a node and has such members. -/
def Tagged (kind : String) (p : List Member → Prop) : Json → Prop :=
  IsObject fun members => Required members "type" (StringMeantBy kind) ∧ p members

mutual

def Node.MeantBy : Node → Json → Prop
  | .conditionalBlock branches location =>
    Tagged "conditionalBlock" fun members =>
      Required members "rules" (IsList (branchesMeantBy branches)) ∧
      OptionalLocation location members
  | .definition name values location =>
    Tagged "definition" fun members =>
      Required members "name" (StringMeantBy name) ∧
      OptionalValues "values" values members ∧
      Required members "location" location.MeantBy
  | .atRule name params none location =>
    Tagged "unknownAtRule" fun members =>
      Required members "name" (StringMeantBy name) ∧
      OptionalValues "params" params members ∧
      Optional members "block" True (· = .null) ∧
      Required members "location" location.MeantBy
  | .atRule name params (some nodes) location =>
    Tagged "unknownAtRule" fun members =>
      Required members "name" (StringMeantBy name) ∧
      OptionalValues "params" params members ∧
      Required members "block" (IsList (nodesMeantBy nodes)) ∧
      Required members "location" location.MeantBy
  | .ruleset selectors children location =>
    Tagged "ruleset" fun members =>
      Required members "selectors" (IsList (List.Forall₂ StringMeantBy selectors)) ∧
      Optional members "children" (children = []) (IsList (nodesMeantBy children)) ∧
      OptionalLocation location members
  | .declaration property values location =>
    Tagged "declaration" fun members =>
      Required members "property" (StringMeantBy property) ∧
      OptionalValues "values" values members ∧
      OptionalLocation location members

def Branch.MeantBy : Branch → Json → Prop
  | ⟨kind, condition, children, location⟩ =>
    IsObject fun members =>
      Required members "kind" kind.MeantBy ∧
      Optional members "condition" (condition = none) (IsOption StringMeantBy condition) ∧
      Optional members "children" (children = []) (IsList (nodesMeantBy children)) ∧
      Required members "location" location.MeantBy

def nodesMeantBy : List Node → List Json → Prop
  | [], items => items = []
  | node :: nodes, items => ∃ item rest, items = item :: rest ∧ node.MeantBy item ∧ nodesMeantBy nodes rest

def branchesMeantBy : List Branch → List Json → Prop
  | [], items => items = []
  | branch :: branches, items =>
    ∃ item rest, items = item :: rest ∧ branch.MeantBy item ∧ branchesMeantBy branches rest

end

/-- A JSON value spells a sheet. -/
def Sheet.MeantBy (sheet : Sheet) : Json → Prop :=
  IsObject fun members =>
    Optional members "sourceName" (sheet.sourceName = "") (StringMeantBy sheet.sourceName) ∧
    Required members "nodes" (IsList (nodesMeantBy sheet.nodes))

/-! ## Records that are lists -/

/-- The records that a sheet is made of. -/
inductive Role where
  | sheet
  | node
  | branch
  | value
  | location
  | position
deriving DecidableEq

/-- What a field is there for. -/
inductive Expected where
  | anything
  | name
  | one (role : Role)
  | many (role : Role)
deriving DecidableEq

/-- The kind of the node with these members, if just one of them names it. -/
def Node.kindOf? (members : List Member) : Option Node.Kind :=
  match Json.valuesOf members "type" with
  | [.string name] =>
    [("conditionalBlock", .conditionalBlock), ("definition", .definition),
      ("unknownAtRule", .atRule), ("ruleset", .ruleset),
      ("declaration", .declaration)].lookup name
  | _ => none

/-- The fields of a kind of node that hold other records. -/
def Node.Kind.records : Node.Kind → List (String × Expected)
  | .conditionalBlock => [("rules", .many .branch), ("location", .one .location)]
  | .definition => [("values", .many .value), ("location", .one .location)]
  | .atRule => [("params", .many .value), ("block", .many .node), ("location", .one .location)]
  | .ruleset => [("children", .many .node), ("location", .one .location)]
  | .declaration => [("values", .many .value), ("location", .one .location)]

/-- The fields of a record that hold names of kinds or other records. What the fields of a node are
depends on its kind, which is known from its members. -/
def Role.fields (members : List Member) : Role → List (String × Expected)
  | .sheet => [("nodes", .many .node)]
  | .node => ("type", .name) :: ((Node.kindOf? members).map Node.Kind.records).getD []
  | .branch => [("kind", .name), ("children", .many .node), ("location", .one .location)]
  | .value => [("location", .one .location)]
  | .location => [("begin", .one .position), ("end", .one .position)]
  | .position => []

def Role.expects (members : List Member) (role : Role) (name : String) : Expected :=
  ((role.fields members).lookup name).getD .anything

namespace Json

mutual

/-- No record in a JSON value is a list, and the kinds of nodes and of branches are names. -/
def fits : Expected → Json → Bool
  | .anything, _ => true
  | .name, .string _ => true
  | .name, _ => false
  | .one role, .object members => fitsMembers (role.expects members) members
  | .one _, .list _ => false
  | .one _, _ => true
  | .many role, .list items => fitsItems role items
  | .many _, _ => true

def fitsMembers (expects : String → Expected) : List Member → Bool
  | [] => true
  | (name, json) :: members => json.fits (expects name) && fitsMembers expects members

def fitsItems (role : Role) : List Json → Bool
  | [] => true
  | item :: items => item.fits (.one role) && fitsItems role items

end

end Json

end StyleScope
