import StyleScope.Json.Basic
import StyleScope.Text.Printable

/-!
# What can be wrong with a JSON text

A text is malformed, or it is JSON but not the value that was wanted.
-/

namespace StyleScope.Json

/-- How a text fails to be JSON. -/
inductive Malformed where
  | endInValue
  | endInString
  | endInList
  | endInObject
  | expectedValue
  | expectedWord
  | expectedColon
  | expectedListEnd
  | expectedObjectEnd
  | expectedName
  | trailingComma
  | trailingText
  | invalidNumber
  | numberOutOfRange
  | invalidEscape
  | controlCharacter
  | loneSurrogate
  | unfinishedPair
  | nestedTooDeep
deriving DecidableEq, Repr

def Malformed.message : Malformed → String
  | .endInValue => "EOF while parsing a value"
  | .endInString => "EOF while parsing a string"
  | .endInList => "EOF while parsing a list"
  | .endInObject => "EOF while parsing an object"
  | .expectedValue => "expected value"
  | .expectedWord => "expected ident"
  | .expectedColon => "expected `:`"
  | .expectedListEnd => "expected `,` or `]`"
  | .expectedObjectEnd => "expected `,` or `\x7d`"
  | .expectedName => "key must be a string"
  | .trailingComma => "trailing comma"
  | .trailingText => "trailing characters"
  | .invalidNumber => "invalid number"
  | .numberOutOfRange => "number out of range"
  | .invalidEscape => "invalid escape"
  | .controlCharacter => "control character (\\u0000-\\u001F) found while parsing a string"
  | .loneSurrogate => "lone leading surrogate in hex escape"
  | .unfinishedPair => "unexpected end of hex escape"
  | .nestedTooDeep => "recursion limit exceeded"

/-- A value as far as a complaint shows it. -/
inductive Found where
  | null
  | bool (b : Bool)
  | number (n : Number)
  | string (s : String)
  | list
  | object
deriving DecidableEq, Repr

def Found.text : Found → String
  | .null => "null"
  | .bool b => "boolean `" ++ (if b then "true" else "false") ++ "`"
  | .number (.integer n) => "integer `" ++ n.repr ++ "`"
  | .number (.float x) => "floating point `" ++ x.format floatLayout ++ "`"
  | .string s => "string " ++ Text.quoted s
  | .list => "sequence"
  | .object => "map"

def found : Json → Found
  | .null => .null
  | .bool b => .bool b
  | .number n => .number n
  | .string s => .string s
  | .list _ => .list
  | .object _ => .object

/-- What was wanted where another value stands. -/
inductive Wanted where
  | string
  | boolean
  | list
  | word
  | unit
  | stringOrObject
  /-- The name of one of the kinds of a value. -/
  | tag
  /-- The position of one of so many kinds. -/
  | tagIndex (count : Nat)
  /-- A value of one of several kinds that says which. -/
  | tagged (name : String)
  /-- A value with fixed fields. -/
  | record (name : String)
deriving DecidableEq, Repr

def Wanted.text : Wanted → String
  | .string => "a string"
  | .boolean => "a boolean"
  | .list => "a sequence"
  | .word => "u32"
  | .unit => "unit"
  | .stringOrObject => "string or map"
  | .tag => "variant identifier"
  | .tagIndex count => "variant index 0 <= i < " ++ count.repr
  | .tagged name => "internally tagged enum " ++ name
  | .record name => "struct " ++ name

/-- How a JSON value fails to be what was wanted. -/
inductive Mismatch where
  | wrongType (found : Found) (wanted : Wanted)
  | outOfRange (n : Int) (wanted : Wanted)
  | notSingle
  | unknownName (name : String) (known : List String)
  | repeated (field : String)
  | missing (field : String)
  /-- A record written as a list that ends before the field at `index`. -/
  | tooShort (index : Nat) (name : String) (fields : Nat)
  /-- A record written as a list with more items than fields. -/
  | tooLong (length : Nat) (fields : Nat)
deriving DecidableEq, Repr

def Mismatch.message : Mismatch → String
  | .wrongType found wanted => "invalid type: " ++ found.text ++ ", expected " ++ wanted.text
  | .outOfRange n wanted => "invalid value: integer `" ++ n.repr ++ "`, expected " ++ wanted.text
  | .notSingle => "invalid value: map, expected map with a single key"
  | .unknownName name known =>
    "unknown variant `" ++ name ++ "`, expected one of " ++
      ", ".intercalate (known.map fun name => "`" ++ name ++ "`")
  | .repeated field => "duplicate field `" ++ field ++ "`"
  | .missing field => "missing field `" ++ field ++ "`"
  | .tooShort index name fields =>
    "invalid length " ++ index.repr ++ ", expected " ++ (Wanted.record name).text ++ " with " ++
      fields.repr ++ " elements"
  | .tooLong length fields =>
    "invalid length " ++ length.repr ++ ", expected " ++ fields.repr ++ " elements in sequence"

/-- What is wrong with a text. -/
inductive Fault where
  | malformed (what : Malformed)
  | mismatch (what : Mismatch)
deriving DecidableEq, Repr

def Fault.message : Fault → String
  | .malformed what => what.message
  | .mismatch what => what.message

end StyleScope.Json
