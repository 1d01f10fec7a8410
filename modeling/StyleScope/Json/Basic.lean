import StyleScope.Binary64

/-!
# JSON values

The members of an object are kept as they were written: in order, and with names that come again.
A value is written without blanks, and in strings only what must be is escaped.
-/

namespace StyleScope

/-- A number is an integer when it is written as one and is not too large; else it is binary. -/
inductive Json.Number where
  | integer (n : Int)
  | float (x : Binary64)
deriving DecidableEq, Repr

/-- A JSON value. -/
inductive Json where
  | null
  | bool (b : Bool)
  | number (n : Json.Number)
  | string (s : String)
  | list (items : List Json)
  | object (members : List (String × Json))
deriving Repr

namespace Json

/-- A member of an object: its name and its value. -/
abbrev Member := String × Json

def integer (n : Int) : Json := .number (.integer n)

/-- Floating point numbers are in plain notation from `1e-5` up to `1e15`. -/
def floatLayout : Decimal.Layout := ⟨-5, 15⟩

/-! ## Nesting -/

mutual

/-- How many brackets are open at once in the deepest part of a value. -/
def depth : Json → Nat
  | .list items => depthOfItems items + 1
  | .object members => depthOfMembers members + 1
  | _ => 0

def depthOfItems : List Json → Nat
  | [] => 0
  | item :: rest => max item.depth (depthOfItems rest)

def depthOfMembers : List Member → Nat
  | [] => 0
  | (_, value) :: rest => max value.depth (depthOfMembers rest)

end

/-! ## As text -/

/-- Four hexadecimal digits of a small number. -/
def hexQuad (n : Nat) : List Char :=
  let digits := Nat.toDigits 16 n
  List.replicate (4 - digits.length) '0' ++ digits

/-- A character as it stands between the quotes. -/
def writtenChar (c : Char) : List Char :=
  if c = '"' then ['\\', '"']
  else if c = '\\' then ['\\', '\\']
  else if c = '\x08' then ['\\', 'b']
  else if c = '\x0c' then ['\\', 'f']
  else if c = '\n' then ['\\', 'n']
  else if c = '\r' then ['\\', 'r']
  else if c = '\t' then ['\\', 't']
  else if c < ' ' then '\\' :: 'u' :: hexQuad c.toNat
  else [c]

def writeString (s : String) : List Char := '"' :: s.toList.flatMap writtenChar ++ ['"']

def writeNumber : Number → List Char
  | .integer n => n.repr.toList
  | .float x => (x.format floatLayout).toList

mutual

def write : Json → List Char
  | .null => ['n', 'u', 'l', 'l']
  | .bool true => ['t', 'r', 'u', 'e']
  | .bool false => ['f', 'a', 'l', 's', 'e']
  | .number n => writeNumber n
  | .string s => writeString s
  | .list [] => ['[', ']']
  | .list (item :: items) => '[' :: write item ++ writeItems items
  | .object [] => ['{', '}']
  | .object ((name, value) :: members) =>
    '{' :: writeString name ++ ':' :: write value ++ writeMembers members

/-- The items after the first one, with the closing bracket. -/
def writeItems : List Json → List Char
  | [] => [']']
  | item :: items => ',' :: write item ++ writeItems items

/-- The members after the first one, with the closing brace. -/
def writeMembers : List Member → List Char
  | [] => ['}']
  | (name, value) :: members =>
    ',' :: writeString name ++ ':' :: write value ++ writeMembers members

end

def text (json : Json) : String := String.ofList json.write

end Json

end StyleScope
