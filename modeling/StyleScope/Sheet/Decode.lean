import StyleScope.Json.Shape
import StyleScope.Sheet.Basic

/-!
# Nodes as JSON values

A node is an object whose member `type` names its kind, or a list that starts with its kind. The
other members, or the other items, are the fields of that kind.
-/

namespace StyleScope

open Json (Mismatch Shape)

/-! ## Places and values -/

namespace Position

def shape : Shape Position :=
  mk <$> .required "line" Json.asWord <*> .required "column" Json.asWord <*>
    .required "offset" Json.asWord

def ofJson : Json → Except Mismatch Position := shape.read "Position"

end Position

namespace Location

def shape : Shape Location :=
  mk <$> .required "begin" Position.ofJson <*> .required "end" Position.ofJson

def ofJson : Json → Except Mismatch Location := shape.read "SourceLocation"

end Location

def optionalLocation : Shape (Option Location) :=
  .optional "location" none (Json.asOption Location.ofJson)

def requiredLocation : Shape Location := .required "location" Location.ofJson

namespace Value

def shape : Shape Value := mk <$> .required "text" Json.asString <*> optionalLocation

def ofJson : Json → Except Mismatch Value := shape.read "Value"

end Value

/-! ## Kinds -/

/-- What may stand beside the name of a kind of branch: nothing of any content. -/
def asNothing : Json → Except Mismatch Unit
  | .null => .ok ()
  | .object [] => .ok ()
  | json => .error (.wrongType json.found .unit)

/-- A kind of branch: its name, or an object with its name for the only member. -/
def Branch.Kind.ofJson : Json → Except Mismatch Branch.Kind
  | .string name => Json.named Branch.Kind.name all name
  | .object [(name, content)] => do
    let kind ← Json.named Branch.Kind.name all name
    asNothing content
    return kind
  | .object _ => throw .notSingle
  | json => throw (.wrongType json.found .stringOrObject)

namespace Node.Kind

def ofName (name : String) : Except Mismatch Kind := Json.named Kind.name all name

/-- A kind of node: its name, or its index among all kinds. -/
def ofJson : Json → Except Mismatch Kind
  | .string name => ofName name
  | .number (.integer n) =>
    if n < 0 then throw (.wrongType (.number (.integer n)) .tag)
    else
      match all[n.toNat]? with
      | some kind => return kind
      | none => throw (.outOfRange n (.tagIndex all.length))
  | json => throw (.wrongType json.found .tag)

/-- The name of the fields of a kind as a record. -/
def recordName : Kind → String
  | .conditionalBlock => "ConditionalBlock"
  | .definition => "Definition"
  | .atRule => "UnknownAtRule"
  | .ruleset => "Ruleset"
  | .declaration => "Declaration"

end Node.Kind

/-! ## Nodes -/

def optionalValues (name : String) : Shape (List Value) :=
  .optional name [] (Json.asList Value.ofJson)

def optionalNodes (node : Json → Except Mismatch Node) : Shape (List Node) :=
  .optional "children" [] (Json.asList node)

def Branch.shape (node : Json → Except Mismatch Node) : Shape Branch :=
  mk <$> .required "kind" Branch.Kind.ofJson <*>
    .optional "condition" none (Json.asOption Json.asString) <*> optionalNodes node <*>
    requiredLocation

def Branch.ofJson (node : Json → Except Mismatch Node) : Json → Except Mismatch Branch :=
  (shape node).read "ConditionalRule"

namespace Node

/-- The fields of each kind of node; nodes inside are read by `node`. -/
def shape (node : Json → Except Mismatch Node) : Kind → Shape Node
  | .conditionalBlock =>
    conditionalBlock <$> .required "rules" (Json.asList (Branch.ofJson node)) <*> optionalLocation
  | .definition =>
    definition <$> .required "name" Json.asString <*> optionalValues "values" <*> requiredLocation
  | .atRule =>
    atRule <$> .required "name" Json.asString <*> optionalValues "params" <*>
      .optional "block" none (Json.asOption (Json.asList node)) <*> requiredLocation
  | .ruleset =>
    ruleset <$> .required "selectors" (Json.asList Json.asString) <*> optionalNodes node <*>
      optionalLocation
  | .declaration =>
    declaration <$> .required "property" Json.asString <*> optionalValues "values" <*>
      optionalLocation

def tagName : String := "type"

/-- The kind of a node among the members of an object. -/
def kindOfMembers (members : List Json.Member) : Except Mismatch Kind :=
  match members.filter (·.1 = tagName) with
  | [] => throw (.missing tagName)
  | [(_, tag)] => Kind.ofJson tag
  | (_, tag) :: _ => do
    let _ ← Kind.ofJson tag
    throw (.repeated tagName)

/-- A node of a known kind from its fields, which are the members of an object or the items of a
list. -/
def ofBody (node : Json → Except Mismatch Node) (kind : Kind) (body : Json) :
    Except Mismatch Node :=
  (shape node kind).read kind.recordName body

/-- A node; the nodes inside it are read by `node`. -/
def ofJsonWith (node : Json → Except Mismatch Node) : Json → Except Mismatch Node
  | .object members => do
    let kind ← kindOfMembers members
    ofBody node kind (.object (members.filter (·.1 ≠ tagName)))
  | .list [] => throw (.missing tagName)
  | .list (tag :: items) => do
    let kind ← Kind.ofJson tag
    ofBody node kind (.list items)
  | json => throw (.wrongType json.found (.tagged "Node"))

/-- A node in which brackets are nested at most `levels` deep. -/
def ofJsonWithin : (levels : Nat) → Json → Except Mismatch Node
  | 0 => ofJsonWith fun json => throw (.wrongType json.found (.tagged "Node"))
  | levels + 1 => ofJsonWith (ofJsonWithin levels)

def ofJson (json : Json) : Except Mismatch Node := ofJsonWithin json.depth json

end Node

end StyleScope
