import StyleScope.Json.Reader

/-!
# Numbers in JSON

A number is read as a significand of 64 bits and a power of ten. Digits that the significand has no
room for count as a power of ten before the point and are dropped behind it.
-/

namespace StyleScope.Json

def greatestSignificand : Nat := 0xffffffffffffffff

def greatestExponent : Nat := 0x7fffffff

def digitValue (c : Char) : Nat := c.toNat - '0'.toNat

def startsWithDigit (text : List Char) : Bool := text.head?.any Char.isDigit

/-- The significand with as many of the digits behind it as it has room for, and the count of the
others. -/
def gather (significand : Nat) : List Char → Nat × Nat
  | [] => (significand, 0)
  | c :: digits =>
    let next := significand * 10 + digitValue c
    if greatestSignificand < next then (significand, digits.length + 1) else gather next digits

/-- The digits of an exponent after the first ones: its value, unless it gets too large, and what
is left after its last digit or after the digit that is too much. -/
def exponentDigits (value : Nat) : List Char → Option Nat × List Char
  | [] => (some value, [])
  | c :: rest =>
    if c.isDigit then
      let next := value * 10 + digitValue c
      if greatestExponent < next then (none, rest) else exponentDigits next rest
    else (some value, c :: rest)

/-- A number from its parts, if it is not too large. -/
def scaled (negative : Bool) (significand : Nat) (exponent : Int) (rest : List Char) :
    Outcome Number :=
  match Binary64.ofDecimal significand exponent with
  | some x => .read (.float (x.withSign negative)) rest
  | none => Malformed.numberOutOfRange.here rest

/-- The sign of an exponent, plus if there is none. -/
def exponentSign : List Char → Bool × List Char
  | '+' :: rest => (false, rest)
  | '-' :: rest => (true, rest)
  | text => (false, text)

/-- The digits of an exponent, `down` if it is negative, of a number that has been read so far. -/
def exponentValue (negative : Bool) (significand : Nat) (exponent : Int) (down : Bool)
    (text : List Char) : Outcome Number :=
  match text with
  | [] => Malformed.endInValue.here []
  | c :: rest =>
    if c.isDigit then
      match exponentDigits (digitValue c) rest with
      | (some n, rest) =>
        scaled negative significand (if down then exponent - n else exponent + n) rest
      | (none, rest) =>
        if significand = 0 ∨ down then
          .read (.float (Binary64.zero.withSign negative)) (rest.dropWhile Char.isDigit)
        else Malformed.numberOutOfRange.here rest
    else Malformed.invalidNumber.onNext (c :: rest)

/-- The exponent, from after the `e`, of a number that has been read so far. -/
def exponentPart (negative : Bool) (significand : Nat) (exponent : Int) (text : List Char) :
    Outcome Number :=
  exponentValue negative significand exponent (exponentSign text).1 (exponentSign text).2

/-- An exponent if there is one. -/
def exponentPart? (negative : Bool) (significand : Nat) (exponent : Int) (text : List Char) :
    Outcome Number :=
  match text with
  | 'e' :: rest | 'E' :: rest => exponentPart negative significand exponent rest
  | _ => scaled negative significand exponent text

/-- The digits behind the point of a number that has been read so far, and its exponent. -/
def fractionPart (negative : Bool) (significand : Nat) (exponent : Int) (text : List Char) :
    Outcome Number :=
  match text.takeWhile Char.isDigit with
  | [] =>
    if text.isEmpty then Malformed.endInValue.onNext text else Malformed.invalidNumber.onNext text
  | digits =>
    let kept := gather significand digits
    exponentPart? negative kept.1 (exponent + kept.2 - digits.length) (text.dropWhile Char.isDigit)

/-- A number without a point or an exponent. -/
def wholeNumber (negative : Bool) (significand : Nat) (rest : List Char) : Outcome Number :=
  if negative then
    if significand = 0 ∨ 0x8000000000000000 < significand then scaled negative significand 0 rest
    else .read (.integer (-significand)) rest
  else .read (.integer significand) rest

/-- What follows the digits before the point, of which `dropped` had no room. -/
def afterWhole (negative : Bool) (significand dropped : Nat) (text : List Char) : Outcome Number :=
  match text with
  | '.' :: rest => fractionPart negative significand dropped rest
  | 'e' :: rest | 'E' :: rest => exponentPart negative significand dropped rest
  | _ =>
    if dropped = 0 then wholeNumber negative significand text
    else scaled negative significand dropped text

/-- A number, from after its sign. -/
def numeral (negative : Bool) (text : List Char) : Outcome Number :=
  match text with
  | [] => Malformed.endInValue.here []
  | '0' :: rest =>
    if startsWithDigit rest then Malformed.invalidNumber.onNext rest
    else afterWhole negative 0 0 rest
  | c :: rest =>
    if c.isDigit then
      let kept := gather 0 (text.takeWhile Char.isDigit)
      afterWhole negative kept.1 kept.2 (rest.dropWhile Char.isDigit)
    else Malformed.invalidNumber.onNext text

/-! ## What is left -/

theorem length_dropDigits_le (text : List Char) :
    (text.dropWhile Char.isDigit).length ≤ text.length :=
  (List.dropWhile_suffix _).length_le

theorem length_exponentDigits_le (value : Nat) (text : List Char) :
    (exponentDigits value text).2.length ≤ text.length := by
  fun_induction exponentDigits value text with
  | case1 => simp
  | case2 => simp
  | case3 _ _ _ _ _ _ ih => exact Nat.le_succ_of_le ih
  | case4 => simp

theorem length_exponentSign_le (text : List Char) :
    (exponentSign text).2.length ≤ text.length := by
  unfold exponentSign
  split <;> simp

theorem below_scaled (negative : Bool) (significand : Nat) (exponent : Int) {rest : List Char}
    {n : Nat} (h : rest.length < n) : (scaled negative significand exponent rest).Below n := by
  unfold scaled
  split
  · exact Outcome.below_read h
  · exact Outcome.below_here ..

theorem below_exponentValue (negative : Bool) (significand : Nat) (exponent : Int) (down : Bool)
    {text : List Char} {n : Nat} (h : text.length < n) :
    (exponentValue negative significand exponent down text).Below n := by
  unfold exponentValue
  split
  · exact Outcome.below_here ..
  · rename_i c rest
    simp only [List.length_cons] at h
    split
    · have hdigits := length_exponentDigits_le (digitValue c) rest
      split
      · rename_i heq
        rw [heq] at hdigits
        exact below_scaled _ _ _ (by dsimp only at hdigits; omega)
      · rename_i rest' heq
        rw [heq] at hdigits
        split
        · have := length_dropDigits_le rest'
          exact Outcome.below_read (by dsimp only at hdigits; omega)
        · exact Outcome.below_here ..
    · exact Outcome.below_onNext ..

theorem below_exponentPart (negative : Bool) (significand : Nat) (exponent : Int)
    {text : List Char} {n : Nat} (h : text.length < n) :
    (exponentPart negative significand exponent text).Below n :=
  below_exponentValue _ _ _ _ (Nat.lt_of_le_of_lt (length_exponentSign_le text) h)

theorem below_exponentPart? (negative : Bool) (significand : Nat) (exponent : Int)
    {text : List Char} {n : Nat} (h : text.length < n) :
    (exponentPart? negative significand exponent text).Below n := by
  unfold exponentPart?
  split
  · exact below_exponentPart _ _ _ (by simp only [List.length_cons] at h; omega)
  · exact below_exponentPart _ _ _ (by simp only [List.length_cons] at h; omega)
  · exact below_scaled _ _ _ h

theorem below_fractionPart (negative : Bool) (significand : Nat) (exponent : Int)
    {text : List Char} {n : Nat} (h : text.length < n) :
    (fractionPart negative significand exponent text).Below n := by
  unfold fractionPart
  have := length_dropDigits_le text
  split
  · split <;> exact Outcome.below_onNext ..
  · exact below_exponentPart? _ _ _ (by omega)

theorem below_wholeNumber (negative : Bool) (significand : Nat) {rest : List Char} {n : Nat}
    (h : rest.length < n) : (wholeNumber negative significand rest).Below n := by
  unfold wholeNumber
  split
  · split
    · exact below_scaled _ _ _ h
    · exact Outcome.below_read h
  · exact Outcome.below_read h

theorem below_afterWhole (negative : Bool) (significand dropped : Nat) {text : List Char} {n : Nat}
    (h : text.length < n) : (afterWhole negative significand dropped text).Below n := by
  unfold afterWhole
  split
  · exact below_fractionPart _ _ _ (by simp only [List.length_cons] at h; omega)
  · exact below_exponentPart _ _ _ (by simp only [List.length_cons] at h; omega)
  · exact below_exponentPart _ _ _ (by simp only [List.length_cons] at h; omega)
  · split
    · exact below_wholeNumber _ _ h
    · exact below_scaled _ _ _ h

theorem below_numeral (negative : Bool) (text : List Char) :
    (numeral negative text).Below text.length := by
  unfold numeral
  split
  · exact Outcome.below_here ..
  · split
    · exact Outcome.below_onNext ..
    · exact below_afterWhole _ _ _ (by simp)
  · rename_i c rest _
    have := length_dropDigits_le rest
    split
    · exact below_afterWhole _ _ _ (by simp only [List.length_cons]; omega)
    · exact Outcome.below_onNext ..

end StyleScope.Json
