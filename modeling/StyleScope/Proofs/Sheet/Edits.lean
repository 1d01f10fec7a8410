import StyleScope.Proofs.Json.CodeUnits
import StyleScope.Proofs.Sheet.Outermost
import StyleScope.Proofs.Sheet.Schema

/-!
# Other spellings of a sheet

The same sheet can be written with other blanks and escapes, with its members in another order, with
or without what is there by default, and with members that are no fields. What may be done to an
object depends on the record that is read from it.
-/

namespace StyleScope

open Json (Blanks Letter Spelling Member)

/-! ## Records and their fields -/

/-- A field: what it holds, and what it holds by default if it may be missing. -/
structure Field where
  name : String
  holds : Expected
  default? : Option Json

namespace Field

def plain (name : String) : Field := ⟨name, .anything, none⟩

def requiredLocation : Field := ⟨"location", .one .location, none⟩

def optionalLocation : Field := ⟨"location", .one .location, some .null⟩

def optionalList (name : String) (role : Role) : Field := ⟨name, .many role, some (.list [])⟩

end Field

/-- What is read from an object, or from a list. -/
inductive Record where
  | sheet
  | node (kind : Node.Kind)
  | branch
  | value
  | location
  | position

/-- The fields of a kind of node, in their order. -/
def Node.Kind.fields : Node.Kind → List Field
  | .conditionalBlock => [⟨"rules", .many .branch, none⟩, .optionalLocation]
  | .definition => [.plain "name", .optionalList "values" .value, .requiredLocation]
  | .atRule =>
    [.plain "name", .optionalList "params" .value, ⟨"block", .many .node, some .null⟩,
      .requiredLocation]
  | .ruleset => [.plain "selectors", .optionalList "children" .node, .optionalLocation]
  | .declaration => [.plain "property", .optionalList "values" .value, .optionalLocation]

/-- The fields of a record, in their order. The kind of a node is given first. -/
def Record.fields : Record → List Field
  | .sheet => [⟨"sourceName", .anything, some (.string "")⟩, ⟨"nodes", .many .node, none⟩]
  | .node kind => .plain "type" :: kind.fields
  | .branch =>
    [.plain "kind", ⟨"condition", .anything, some .null⟩, .optionalList "children" .node,
      .requiredLocation]
  | .value => [.plain "text", .optionalLocation]
  | .location => [⟨"begin", .one .position, none⟩, ⟨"end", .one .position, none⟩]
  | .position => [.plain "line", .plain "column", .plain "offset"]

/-- The record that is read from a value; which one a node is depends on the kind it gives. -/
def Role.record? (json? : Option Json) : Role → Option Record
  | .sheet => some .sheet
  | .node => (json?.bind Node.tag?).bind fun tag => (Node.Kind.ofJson tag).toOption.map .node
  | .branch => some .branch
  | .value => some .value
  | .location => some .location
  | .position => some .position

namespace Expected

def record? (json? : Option Json) : Expected → Option Record
  | .one role => role.record? json?
  | _ => none

/-- What is expected of the members with a name in an object of which this is expected. -/
def ofMember (json? : Option Json) (name? : Option String) (e : Expected) : Expected :=
  (((e.record? json?).bind fun record =>
    name?.bind fun name => record.fields.find? (·.name = name)).map Field.holds).getD .anything

/-- What is expected of an item in a list of which this is expected. -/
def ofItem (json? : Option Json) (index : Nat) : Expected → Expected
  | .many role => .one role
  | e =>
    (((e.record? json?).bind fun record => record.fields[index]?).map Field.holds).getD .anything

end Expected

/-! ## Edits of a text -/

namespace Json.Spelling

/-- A member with other blanks, and with its name spelled in another way. -/
def Member.Respelled (member member' : Member) : Prop :=
  Letter.Respelled member.name member'.name ∧ member.value = member'.value

/-- One edit of a text of which something is expected. -/
inductive Edit : Expected → Spelling → Spelling → Prop
  | string {e : Expected} {letters letters' : List Letter} (h : Letter.Respelled letters letters') :
      Edit e (.string letters) (.string letters')
  /-- Other blanks in a list. -/
  | list {e : Expected} {inside inside' : Blanks} {items items' : List Item}
      (h : items.map Item.value = items'.map Item.value) :
      Edit e (.list inside items) (.list inside' items')
  /-- Other blanks in an object, and other spellings of the names in it. -/
  | object {e : Expected} {inside inside' : Blanks} {members members' : List Member}
      (h : List.Forall₂ Member.Respelled members members') :
      Edit e (.object inside members) (.object inside' members')
  | permuted {e : Expected} {inside : Blanks} {members members' : List Member}
      (h : members.Perm members') : Edit e (.object inside members) (.object inside members')
  /-- An edit inside a list. -/
  | item {e : Expected} {inside before after : Blanks} {earlier later : List Item}
      {value value' : Spelling}
      (h : Edit (e.ofItem (list inside (earlier ++ ⟨before, value, after⟩ :: later)).value?
        earlier.length) value value') :
      Edit e (.list inside (earlier ++ ⟨before, value, after⟩ :: later))
        (.list inside (earlier ++ ⟨before, value', after⟩ :: later))
  /-- An edit inside an object. -/
  | member {e : Expected} {inside before afterName beforeValue after : Blanks}
      {name : List Letter} {earlier later : List Member} {value value' : Spelling}
      (h : Edit (e.ofMember (object inside (earlier ++
        ⟨before, name, afterName, beforeValue, value, after⟩ :: later)).value?
        (Letter.string? name)) value value') :
      Edit e
        (.object inside (earlier ++ ⟨before, name, afterName, beforeValue, value, after⟩ :: later))
        (.object inside (earlier ++ ⟨before, name, afterName, beforeValue, value', after⟩ :: later))
  /-- A default is written down. -/
  | written {e : Expected} {inside : Blanks} {earlier later : List Member} {record : Record}
      {field : Field} {default : Json} {member : Member}
      (hrecord : e.record? (object inside (earlier ++ later)).value? = some record)
      (hfield : field ∈ record.fields) (hdefault : field.default? = some default)
      (habsent : ∀ other ∈ earlier ++ later, Letter.string? other.name ≠ some field.name)
      (hname : Letter.string? member.name = some field.name)
      (hvalue : member.value.value? = some default) :
      Edit e (.object inside (earlier ++ later)) (.object inside (earlier ++ member :: later))
  /-- A default is left out. -/
  | leftOut {e : Expected} {inside : Blanks} {earlier later : List Member} {record : Record}
      {field : Field} {default : Json} {member : Member}
      (hrecord : e.record? (object inside (earlier ++ member :: later)).value? = some record)
      (hfield : field ∈ record.fields) (hdefault : field.default? = some default)
      (hname : Letter.string? member.name = some field.name)
      (hvalue : member.value.value? = some default) :
      Edit e (.object inside (earlier ++ member :: later)) (.object inside (earlier ++ later))
  /-- A member that is no field is put in. -/
  | inserted {e : Expected} {inside : Blanks} {earlier later : List Member} {record : Record}
      {member : Member} {name : String} {json : Json}
      (hrecord : e.record? (object inside (earlier ++ later)).value? = some record)
      (hname : Letter.string? member.name = some name)
      (hother : ∀ field ∈ record.fields, field.name ≠ name)
      (hvalue : member.value.value? = some json) :
      Edit e (.object inside (earlier ++ later)) (.object inside (earlier ++ member :: later))

end Json.Spelling

end StyleScope
