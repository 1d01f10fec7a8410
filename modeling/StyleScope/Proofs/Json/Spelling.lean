import Mathlib
import StyleScope.Json.Values

/-!
# How JSON values are spelled

A `Spelling` is a JSON value as it stands in a text, with every blank, every escape and every digit.
So the texts of spellings are just the well-formed ones. What a spelling means does not depend on
how deep it is nested; it may mean nothing, when a surrogate stands alone or a number is too large.
-/

namespace StyleScope.Json

/-! ## Strings -/

/-- A character of a string as it is spelled. -/
inductive Letter where
  | plain (c : Char) (h : c ≠ '"' ∧ c ≠ '\\' ∧ ¬ c < ' ')
  /-- A backslash and one character, which stand for `meant`. -/
  | short (c meant : Char) (h : shortEscape? c = some meant)
  /-- A backslash, a `u` and four hexadecimal digits, which spell `n`. -/
  | numbered (a b c d : Char) (n : Nat) (h : hexValue? a b c d = some n)

namespace Letter

def text : Letter → List Char
  | plain c _ => [c]
  | short c _ _ => ['\\', c]
  | numbered a b c d _ _ => ['\\', 'u', a, b, c, d]

/-- The characters that letters stand for, unless there is a surrogate without another one. -/
def values? : List Letter → Option (List Char)
  | [] => some []
  | plain c _ :: letters => (values? letters).map (c :: ·)
  | short _ meant _ :: letters => (values? letters).map (meant :: ·)
  | numbered _ _ _ _ n _ :: letters =>
    if isLowSurrogate n then none
    else if isHighSurrogate n then
      match letters with
      | numbered _ _ _ _ low _ :: letters =>
        if isLowSurrogate low then (values? letters).map (pairedChar n low :: ·) else none
      | _ => none
    else (values? letters).map (Char.ofNat n :: ·)

/-- A string as it is spelled, with its quotes. -/
def quoted (letters : List Letter) : List Char := '"' :: letters.flatMap text ++ ['"']

def string? (letters : List Letter) : Option String := (values? letters).map String.ofList

end Letter

/-! ## Numbers -/

/-- At least one digit. -/
structure Digits where
  chars : List Char
  ne_nil : chars ≠ []
  isDigit : ∀ c ∈ chars, c.isDigit

/-- The power of ten at the end of a number. -/
structure Exponent where
  /-- The letter before it. -/
  mark : Char
  isMark : mark = 'e' ∨ mark = 'E'
  /-- Its sign, if it has one. -/
  negative? : Option Bool
  digits : Digits

/-- A number as it is spelled. -/
structure Numeral where
  negative : Bool
  whole : Digits
  /-- No zeros stand before the digits. -/
  noZeros : whole.chars = ['0'] ∨ whole.chars.head? ≠ some '0'
  fraction : Option Digits
  exponent : Option Exponent

namespace Exponent

def signText : Option Bool → List Char
  | none => []
  | some false => ['+']
  | some true => ['-']

def text (exponent : Exponent) : List Char :=
  exponent.mark :: signText exponent.negative? ++ exponent.digits.chars

def optionalText : Option Exponent → List Char
  | none => []
  | some exponent => exponent.text

end Exponent

namespace Numeral

/-- A binary number from its parts, if it is not too large. -/
def float? (negative : Bool) (significand : Nat) (exponent : Int) : Option Number :=
  (Binary64.ofDecimal significand exponent).map fun x => .float (x.withSign negative)

/-- A number without a point or a power of ten: an integer if it has room in 64 bits. -/
def whole? (negative : Bool) (significand : Nat) : Option Number :=
  if negative then
    if significand = 0 ∨ 2 ^ 63 < significand then float? negative significand 0
    else some (.integer (-significand))
  else some (.integer significand)

/-- A number times a power of ten. -/
def power? (negative : Bool) (significand : Nat) (exponent : Int) (power : Exponent) :
    Option Number :=
  let down := power.negative?.getD false
  match (exponentDigits 0 power.digits.chars).1 with
  | some n => float? negative significand (if down then exponent - n else exponent + n)
  | none =>
    if significand = 0 ∨ down then some (.float (Binary64.zero.withSign negative)) else none

def optionalPower? (negative : Bool) (significand : Nat) (exponent : Int) :
    Option Exponent → Option Number
  | none => float? negative significand exponent
  | some power => power? negative significand exponent power

/-- The number that a numeral means, if it is not too large. -/
def value? (n : Numeral) : Option Number :=
  let kept := gather 0 n.whole.chars
  match n.fraction, n.exponent with
  | none, none => if kept.2 = 0 then whole? n.negative kept.1 else float? n.negative kept.1 kept.2
  | none, some power => power? n.negative kept.1 kept.2 power
  | some fraction, power =>
    let all := gather kept.1 fraction.chars
    optionalPower? n.negative all.1 (kept.2 + all.2 - fraction.chars.length) power

def fractionText : Option Digits → List Char
  | none => []
  | some fraction => '.' :: fraction.chars

/-- A numeral without its sign. -/
def unsigned (n : Numeral) : List Char :=
  n.whole.chars ++ (fractionText n.fraction ++ Exponent.optionalText n.exponent)

def text (n : Numeral) : List Char := if n.negative then '-' :: n.unsigned else n.unsigned

end Numeral

/-! ## Values -/

/-- Blanks between the parts of a text. -/
structure Blanks where
  text : List Char
  isBlank : ∀ c ∈ text, Json.isBlank c

def Blanks.none : Blanks := ⟨[], nofun⟩

mutual

/-- A JSON value as it is spelled. The blanks `inside` follow the opening bracket. -/
inductive Spelling where
  | null
  | bool (b : Bool)
  | number (n : Numeral)
  | string (letters : List Letter)
  | list (inside : Blanks) (items : List Spelling.Item)
  | object (inside : Blanks) (members : List Spelling.Member)

/-- An item of a list with the blanks around it. -/
structure Spelling.Item where
  before : Blanks
  value : Spelling
  after : Blanks

/-- A member of an object with the blanks around its parts. -/
structure Spelling.Member where
  before : Blanks
  name : List Letter
  afterName : Blanks
  beforeValue : Blanks
  value : Spelling
  after : Blanks

end

namespace Spelling

/-- The comma before an item or a member that is not the first one. -/
def comma (first : Bool) : List Char := if first then [] else [',']

mutual

def text : Spelling → List Char
  | null => ['n', 'u', 'l', 'l']
  | bool true => ['t', 'r', 'u', 'e']
  | bool false => ['f', 'a', 'l', 's', 'e']
  | number n => n.text
  | string letters => Letter.quoted letters
  | list inside items => '[' :: (inside.text ++ (textOfItems true items ++ [']']))
  | object inside members => '{' :: (inside.text ++ (textOfMembers true members ++ ['}']))

def textOfItems (first : Bool) : List Item → List Char
  | [] => []
  | ⟨before, value, after⟩ :: items =>
    comma first ++ (before.text ++ (value.text ++ (after.text ++ textOfItems false items)))

def textOfMembers (first : Bool) : List Member → List Char
  | [] => []
  | ⟨before, name, afterName, beforeValue, value, after⟩ :: members =>
    comma first ++ (before.text ++ (Letter.quoted name ++ (afterName.text ++ (':' ::
      (beforeValue.text ++ (value.text ++ (after.text ++ textOfMembers false members)))))))

end

/-- A whole text, with blanks around its value. -/
def document (before : Blanks) (s : Spelling) (after : Blanks) : String :=
  String.ofList (before.text ++ (s.text ++ after.text))

mutual

/-- How many brackets are open at once in the deepest part of a text. -/
def depth : Spelling → Nat
  | list _ items => depthOfItems items + 1
  | object _ members => depthOfMembers members + 1
  | _ => 0

def depthOfItems : List Item → Nat
  | [] => 0
  | ⟨_, value, _⟩ :: items => max value.depth (depthOfItems items)

def depthOfMembers : List Member → Nat
  | [] => 0
  | ⟨_, _, _, _, value, _⟩ :: members => max value.depth (depthOfMembers members)

end

mutual

/-- The value that is spelled, if every string and every number in it means something. -/
def value? : Spelling → Option Json
  | null => some .null
  | bool b => some (.bool b)
  | number n => n.value?.map .number
  | string letters => (Letter.string? letters).map .string
  | list _ items => (items? items).map .list
  | object _ members => (members? members).map .object

def items? : List Item → Option (List Json)
  | [] => some []
  | ⟨_, value, _⟩ :: items =>
    value.value?.bind fun json => (items? items).map (json :: ·)

def members? : List Member → Option (List Json.Member)
  | [] => some []
  | ⟨_, name, _, _, value, _⟩ :: members =>
    (Letter.string? name).bind fun name =>
      value.value?.bind fun json => (members? members).map ((name, json) :: ·)

end

end Spelling

end StyleScope.Json
