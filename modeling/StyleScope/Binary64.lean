/-!
# Binary floating point

Finite numbers of 64-bit binary floating point, and the operations that reading a decimal needs.
Each is computed exactly on natural numbers and rounded once, to the nearest number of the format,
a tie to the even one. `none` stands for a result too large for the format.

Of the decimals that are read back as a given binary number the one with the fewest digits is
written; of several such the nearest, and of two equally near the one with the even last digit.
-/

namespace StyleScope

/-!
## Decimals as text

A decimal is written in plain notation, with a point, or with one digit before the point and a power
of ten behind. Which of the two is chosen depends on the power of its leading digit.
-/

/-- The number `digits * 10 ^ exponent`. -/
structure Decimal where
  digits : Nat
  exponent : Int
deriving DecidableEq, Repr

namespace Decimal

/-- When the plain notation is chosen. -/
structure Layout where
  /-- The least power of the leading digit that is written plain. -/
  leastPlain : Int
  /-- The greatest such power. -/
  greatestPlain : Int

/-- The power of ten of the leading digit. -/
def leadingPower (d : Decimal) : Int := d.exponent + (Nat.toDigits 10 d.digits).length - 1

def zeros (count : Nat) : List Char := List.replicate count '0'

/-- The digits with a point after the first `whole` of them. -/
def withPoint (whole : Nat) (digits : List Char) : List Char :=
  digits.take whole ++ '.' :: digits.drop whole

/-- A decimal in plain notation, with at least one digit on either side of the point. -/
def plain (d : Decimal) : List Char :=
  let digits := Nat.toDigits 10 d.digits
  if 0 ≤ d.exponent then digits ++ zeros d.exponent.toNat ++ ['.', '0']
  else
    let places := d.exponent.natAbs
    let digits := zeros (places + 1 - digits.length) ++ digits
    withPoint (digits.length - places) digits

/-- A decimal with one digit before the point, and the power of ten after an `e` with its sign. -/
def scientific (d : Decimal) : List Char :=
  let digits := Nat.toDigits 10 d.digits
  (if digits.length = 1 then digits else withPoint 1 digits) ++
    'e' :: (if d.leadingPower < 0 then '-' else '+') :: Nat.toDigits 10 d.leadingPower.natAbs

/-- A decimal in the notation that the layout chooses. -/
def format (layout : Layout) (d : Decimal) : List Char :=
  if layout.leastPlain ≤ d.leadingPower ∧ d.leadingPower ≤ layout.greatestPlain then d.plain
  else d.scientific

end Decimal

/-! ## Binary numbers -/

/--
The number `mantissa * 2 ^ exponent`, negative or not. Zero has a sign too. The operations below
keep the mantissa under `2 ^ 53`, at least `2 ^ 52` unless the exponent is the least one, -1074.
-/
structure Binary64 where
  negative : Bool
  mantissa : Nat
  exponent : Int
deriving DecidableEq, Repr

/-- The quotient rounded to the nearest natural number, a tie to the even one. -/
def roundDiv (num den : Nat) : Nat :=
  let below := num / den
  let twice := 2 * (num % den)
  if twice < den then below else if den < twice then below + 1 else below + below % 2

namespace Binary64

def leastExponent : Int := -1074

def greatestExponent : Int := 971

def zero : Binary64 := ⟨false, 0, leastExponent⟩

/-- The exponent for which the quotient takes 53 binary digits, or the least one. -/
def exponentFor (num den : Nat) : Int :=
  let guess : Int := num.log2 - den.log2 - 52
  let fits := den * Nat.pow 2 (guess + 52).toNat ≤ num * Nat.pow 2 (-(guess + 52)).toNat
  max leastExponent (if fits then guess else guess - 1)

/-- A mantissa of at most `2 ^ 53`, brought into the form that the format gives it. -/
def pack (mantissa : Nat) (exponent : Int) : Option Binary64 :=
  let (mantissa, exponent) :=
    if mantissa = Nat.pow 2 53 then (Nat.pow 2 52, exponent + 1) else (mantissa, exponent)
  if exponent ≤ greatestExponent then some ⟨false, mantissa, exponent⟩ else none

/-- The number nearest to a quotient. -/
def nearest (num den : Nat) : Option Binary64 :=
  if num = 0 then some zero
  else
    let exponent := exponentFor num den
    pack (roundDiv (num * Nat.pow 2 (-exponent).toNat) (den * Nat.pow 2 exponent.toNat)) exponent

def isZero (x : Binary64) : Bool := x.mantissa = 0

def withSign (negative : Bool) (x : Binary64) : Binary64 := { x with negative }

/-- The product of two numbers, signs left aside. -/
def mul (x y : Binary64) : Option Binary64 :=
  let exponent := x.exponent + y.exponent
  nearest (x.mantissa * y.mantissa * Nat.pow 2 exponent.toNat) (Nat.pow 2 (-exponent).toNat)

/-- The quotient of two numbers, signs left aside. -/
def div (x y : Binary64) : Option Binary64 :=
  let exponent := x.exponent - y.exponent
  nearest (x.mantissa * Nat.pow 2 exponent.toNat) (y.mantissa * Nat.pow 2 (-exponent).toNat)

def ofNat (n : Nat) : Option Binary64 := nearest n 1

/-- The greatest power of ten that the format holds. -/
def greatestTen : Nat := 308

/--
A number scaled by a power of ten: one product or quotient if the power is in the format, and for
smaller powers a quotient by the greatest one as long as that is too little.
-/
def scaleTen (x : Binary64) (exponent : Int) : Option Binary64 :=
  if exponent.natAbs ≤ greatestTen then do
    let power ← ofNat (Nat.pow 10 exponent.natAbs)
    if 0 ≤ exponent then x.mul power else x.div power
  else if x.isZero then some x
  else if 0 ≤ exponent then none
  else do
    let power ← ofNat (Nat.pow 10 greatestTen)
    scaleTen (← x.div power) (exponent + greatestTen)
termination_by exponent.natAbs
decreasing_by simp only [greatestTen] at *; omega

/-- The number read for `significand * 10 ^ exponent`, which is not always the nearest one. -/
def ofDecimal (significand : Nat) (exponent : Int) : Option Binary64 := do
  (← ofNat significand).scaleTen exponent

/-! ## The shortest decimal of a number -/

/-- The numbers that round to a given one, as multiples of `unit / scale`. -/
structure Interval where
  low : Nat
  value : Nat
  high : Nat
  unit : Nat
  scale : Nat
  /-- Whether `low` and `high` themselves belong to it. -/
  closed : Bool

/-- The numbers that round to `x`: half a step around it, a quarter below a power of two. -/
def Interval.around (x : Binary64) : Interval where
  low := 4 * x.mantissa - if x.mantissa = Nat.pow 2 52 ∧ x.exponent ≠ leastExponent then 1 else 2
  value := 4 * x.mantissa
  high := 4 * x.mantissa + 2
  unit := Nat.pow 2 (x.exponent - 2).toNat
  scale := Nat.pow 2 (2 - x.exponent).toNat
  closed := x.mantissa % 2 = 0

namespace Interval

/-- Whether `point` steps of `10 ^ exponent` lie in the interval. -/
def contains (i : Interval) (exponent : Int) (point : Nat) : Bool :=
  let point := point * Nat.pow 10 exponent.toNat * i.scale
  let unit := i.unit * Nat.pow 10 (-exponent).toNat
  if i.closed then i.low * unit ≤ point && point ≤ i.high * unit
  else i.low * unit < point && point < i.high * unit

/-- The point of the grid of step `10 ^ exponent` nearest to the value, if the interval has one. -/
def onGrid (i : Interval) (exponent : Int) : Option Decimal :=
  let num := i.value * i.unit * Nat.pow 10 (-exponent).toNat
  let den := i.scale * Nat.pow 10 exponent.toNat
  let best := roundDiv num den
  let below := num / den
  let other := if best = below then below + 1 else below
  ([best, other].find? fun point => 0 < point && i.contains exponent point).map (⟨·, exponent⟩)

end Interval

/-- The shortest decimal of a number, sign aside: that of the coarsest grid which has one. -/
def shortest (x : Binary64) : Decimal :=
  if x.isZero then ⟨0, 0⟩
  else
    let i := Interval.around x
    ((List.range 634).findSome? fun (k : Nat) => i.onGrid (309 - k)).getD ⟨0, 0⟩

def format (layout : Decimal.Layout) (x : Binary64) : String :=
  String.ofList ((if x.negative then ['-'] else []) ++ x.shortest.format layout)

end Binary64

end StyleScope
