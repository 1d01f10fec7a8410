import StyleScope.Json.Basic
import StyleScope.Sheet.Basic

/-!
# Style sheets as JSON

Every field is written, also one that holds its default, and the kind of a node comes first.
-/

namespace StyleScope

def Json.ofOption {α : Type} (encode : α → Json) : Option α → Json
  | none => .null
  | some a => encode a

def Json.ofWord (n : UInt32) : Json := .integer n.toNat

def Position.toJson (position : Position) : Json :=
  .object [("line", .ofWord position.line), ("column", .ofWord position.column),
    ("offset", .ofWord position.offset)]

def Location.toJson (location : Location) : Json :=
  .object [("begin", location.start.toJson), ("end", location.stop.toJson)]

/-- A place, or `null` for none. -/
def locationToJson : Option Location → Json := .ofOption Location.toJson

def Value.toJson (value : Value) : Json :=
  .object [("text", .string value.text), ("location", locationToJson value.location)]

def valuesToJson (values : List Value) : Json := .list (values.map Value.toJson)

mutual

def Node.toJson : Node → Json
  | .conditionalBlock branches location =>
    .object [("type", .string Node.Kind.conditionalBlock.name),
      ("rules", .list (branchItems branches)), ("location", locationToJson location)]
  | .definition name values location =>
    .object [("type", .string Node.Kind.definition.name), ("name", .string name),
      ("values", valuesToJson values), ("location", location.toJson)]
  | .atRule name params none location =>
    .object [("type", .string Node.Kind.atRule.name), ("name", .string name),
      ("params", valuesToJson params), ("block", .null), ("location", location.toJson)]
  | .atRule name params (some nodes) location =>
    .object [("type", .string Node.Kind.atRule.name), ("name", .string name),
      ("params", valuesToJson params), ("block", .list (nodeItems nodes)),
      ("location", location.toJson)]
  | .ruleset selectors children location =>
    .object [("type", .string Node.Kind.ruleset.name),
      ("selectors", .list (selectors.map .string)), ("children", .list (nodeItems children)),
      ("location", locationToJson location)]
  | .declaration property values location =>
    .object [("type", .string Node.Kind.declaration.name), ("property", .string property),
      ("values", valuesToJson values), ("location", locationToJson location)]

def Branch.toJson : Branch → Json
  | ⟨kind, condition, children, location⟩ =>
    .object [("kind", .string kind.name), ("condition", .ofOption .string condition),
      ("children", .list (nodeItems children)), ("location", location.toJson)]

def nodeItems : List Node → List Json
  | [] => []
  | node :: nodes => node.toJson :: nodeItems nodes

def branchItems : List Branch → List Json
  | [] => []
  | branch :: branches => branch.toJson :: branchItems branches

end

namespace Sheet

def toJson (sheet : Sheet) : Json :=
  .object [("sourceName", .string sheet.sourceName), ("nodes", .list (nodeItems sheet.nodes))]

def text (sheet : Sheet) : String := sheet.toJson.text

end Sheet

end StyleScope
