import StyleScope.Json.Fault

/-!
# Values with fixed fields

A `Shape` says which fields a record has and what each of them holds. A record is written as an
object with the fields as members, in any order, or as a list with the fields in their order.
Members that are no fields of the record may hold anything. Of several faults the one that comes
first in the text counts, and a field that is missing counts only if there is no other fault.
-/

namespace StyleScope.Json

variable {α β γ : Type}

/-! ## What became of the fields -/

/-- What was gathered from some fields. -/
inductive Gathered (α : Type) where
  | all (value : α)
  /-- The member at `index` is wrong. -/
  | wrong (index : Nat) (what : Mismatch)
  | lacking (what : Mismatch)
deriving DecidableEq, Repr

namespace Gathered

/-- Two groups of fields together: the first fault in the text counts, then the first lack. -/
def combine (f : α → β → γ) : Gathered α → Gathered β → Gathered γ
  | .all a, .all b => .all (f a b)
  | .wrong i what, .wrong j what' => if i ≤ j then .wrong i what else .wrong j what'
  | .wrong i what, _ => .wrong i what
  | _, .wrong j what => .wrong j what
  | .lacking what, _ => .lacking what
  | _, .lacking what => .lacking what

def toExcept : Gathered α → Except Mismatch α
  | .all value => .ok value
  | .wrong _ what => .error what
  | .lacking what => .error what

end Gathered

/-! ## Shapes -/

/-- How the fields of a record are looked up: each with its index in the text. -/
abbrev Lookup := String → Option (Nat × Json)

/--
The fields of a record in their order, and how its value is gathered from what a look-up finds;
`lack` is the complaint about a field that is not there.
-/
structure Shape (α : Type) where
  fields : List String
  gather : (find : Lookup) → (lack : String → Mismatch) → Gathered α

namespace Shape

/-- A field that must be there. -/
def required (name : String) (read : Json → Except Mismatch α) : Shape α where
  fields := [name]
  gather find lack :=
    match find name with
    | none => .lacking (lack name)
    | some (index, json) =>
      match read json with
      | .ok value => .all value
      | .error what => .wrong index what

/-- A field with a default. -/
def optional (name : String) (default : α) (read : Json → Except Mismatch α) : Shape α where
  fields := [name]
  gather find _ :=
    match find name with
    | none => .all default
    | some (index, json) =>
      match read json with
      | .ok value => .all value
      | .error what => .wrong index what

instance : Applicative Shape where
  pure value := ⟨[], fun _ _ => .all value⟩
  seq f a :=
    let a := a ()
    ⟨f.fields ++ a.fields, fun find lack =>
      (f.gather find lack).combine (fun f a => f a) (a.gather find lack)⟩

/-! ## Records as objects -/

/-- The first member of a name, with its index. -/
def firstNamed (members : List Member) (name : String) : Option (Nat × Json) :=
  (members.zipIdx.find? fun (member, _) => member.1 = name).map fun (member, index) =>
    (index, member.2)

/-- The first member that repeats a field. -/
def firstRepeat (fields : List String) (members : List Member) : Gathered Unit :=
  match members.zipIdx.find? fun (member, index) =>
    member.1 ∈ fields ∧ member.1 ∈ (members.take index).map Prod.fst with
  | some (member, index) => .wrong index (.repeated member.1)
  | none => .all ()

/-- A record from the members of an object. -/
def ofMembers (shape : Shape α) (members : List Member) : Except Mismatch α :=
  ((firstRepeat shape.fields members).combine (fun _ value => value)
    (shape.gather (firstNamed members) .missing)).toExcept

/-! ## Records as lists -/

/-- The complaint about a list that ends before a field. -/
def tooShort (name : String) (fields : List String) (field : String) : Mismatch :=
  .tooShort (fields.idxOf field) name fields.length

/-- A record, called `name`, from the items of a list. -/
def ofItems (name : String) (shape : Shape α) (items : List Json) : Except Mismatch α := do
  let value ← (shape.gather (firstNamed (shape.fields.zip items))
    (tooShort name shape.fields)).toExcept
  if items.length ≤ shape.fields.length then return value
  else throw (.tooLong items.length shape.fields.length)

/-- A record, called `name`, from either form. -/
def read (name : String) (shape : Shape α) : Json → Except Mismatch α
  | .object members => shape.ofMembers members
  | .list items => shape.ofItems name items
  | json => throw (.wrongType json.found (.record name))

end Shape

/-! ## What fields can hold -/

def asString : Json → Except Mismatch String
  | .string s => .ok s
  | json => .error (.wrongType json.found .string)

/-- A natural number of 32 bits, written as an integer. -/
def asWord : Json → Except Mismatch UInt32
  | .number (.integer n) =>
    if 0 ≤ n ∧ n < UInt32.size then .ok (UInt32.ofNat n.toNat) else .error (.outOfRange n .word)
  | json => .error (.wrongType json.found .word)

/-- Nothing, as `null`, or what `read` reads. -/
def asOption (read : Json → Except Mismatch α) : Json → Except Mismatch (Option α)
  | .null => .ok none
  | json => (read json).map some

/-- A list of what `read` reads, up to the first fault. -/
def asList (read : Json → Except Mismatch α) : Json → Except Mismatch (List α)
  | .list items => items.mapM read
  | json => .error (.wrongType json.found .list)

/-- The one of several kinds that has a name. -/
def named (nameOf : α → String) (kinds : List α) (name : String) : Except Mismatch α :=
  match kinds.find? (nameOf · = name) with
  | some kind => .ok kind
  | none => .error (.unknownName name (kinds.map nameOf))

end StyleScope.Json
