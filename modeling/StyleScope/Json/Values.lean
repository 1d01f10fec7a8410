import StyleScope.Json.Brackets
import StyleScope.Json.Numeral

/-!
# JSON values in a text

`value` reads any value that opens at most so many brackets within each other. `notThis` refuses a
value of the wrong type; it is named in the complaint, so what can be read of it is read.
-/

namespace StyleScope.Json

variable {α : Type}

/-- The rest of a word of which the first letter has been read. -/
def literal (value : Json) : List Char → List Char → Outcome Json
  | [], text => .read value text
  | _ :: _, [] => Malformed.endInValue.here []
  | letter :: letters, c :: rest =>
    if c = letter then literal value letters rest else Malformed.expectedWord.onNext (c :: rest)

/-- A value without brackets; no blanks stand before it. -/
def scalar (text : List Char) : Outcome Json :=
  match text with
  | [] => Malformed.endInValue.onNext []
  | 'n' :: rest => literal .null ['u', 'l', 'l'] rest
  | 't' :: rest => literal (.bool true) ['r', 'u', 'e'] rest
  | 'f' :: rest => literal (.bool false) ['a', 'l', 's', 'e'] rest
  | '"' :: rest => (quotedText.run rest).map .string
  | '-' :: rest => (numeral true rest).map .number
  | c :: rest =>
    if c.isDigit then (numeral false (c :: rest)).map .number
    else Malformed.expectedValue.onNext (c :: rest)

/-- Refuses the value that comes next; no blanks stand before it. Of a list or an object not even
the bracket is read. -/
def notThis (wanted : Wanted) (text : List Char) : Outcome α :=
  match text with
  | '[' :: _ => (Mismatch.wrongType .list wanted).here text
  | '{' :: _ => (Mismatch.wrongType .object wanted).here text
  | _ => (scalar text).bind fun value rest => (Mismatch.wrongType value.found wanted).here rest

/-! ## What is left -/

theorem below_literal (value : Json) (letters text : List Char) :
    (literal value letters text).Below (text.length + 1) := by
  fun_induction literal value letters text with
  | case1 => exact Outcome.below_read (Nat.lt_succ_self _)
  | case2 => exact Outcome.below_here ..
  | case3 _ _ _ ih => exact ih.mono (by simp)
  | case4 => exact Outcome.below_onNext ..

theorem below_scalar (text : List Char) : (scalar text).Below text.length := by
  unfold scalar
  split
  · exact Outcome.below_onNext ..
  · exact below_literal ..
  · exact below_literal ..
  · exact below_literal ..
  · exact ((quotedText.shrinks _).map _).mono (by simp)
  · exact ((below_numeral true _).map _).mono (by simp)
  · split
    · exact (below_numeral false _).map _
    · exact Outcome.below_onNext ..

theorem below_notThis (wanted : Wanted) (text : List Char) (n : Nat) :
    (notThis wanted text : Outcome α).Below n := by
  unfold notThis
  split
  · exact Outcome.below_mismatch ..
  · exact Outcome.below_mismatch ..
  · exact (below_scalar text).bind fun _ _ _ => Outcome.below_mismatch ..

/-! ## Any value -/

/-- Reads a member of an object and puts it before those that came earlier. -/
def member (inner : Reader Json) (earlier : List Member) (name : String) : Reader (List Member) :=
  colon.bind fun _ => inner.map fun value => (name, value) :: earlier

def listItems (inner : Reader Json) (first : Bool) (text : List Char) : Outcome Json :=
  (items inner first text).map .list

def objectMembers (inner : Reader Json) (text : List Char) : Outcome Json :=
  (members (member inner) true [] text).map fun earlier => .object earlier.reverse

/-- A value whose items and members are read by `inner`. -/
def nested (inner : Reader Json) : Reader Json where
  run := bracketed (listItems inner true) (objectMembers inner) scalar
  shrinks := below_bracketed (fun text => (below_items inner true text).map _)
    (fun text => (below_members (member inner) true [] text).map _) below_scalar

/-- Any value that opens at most `levels` brackets within each other. -/
def value : (levels : Nat) → Reader Json
  | 0 => ⟨unbracketed scalar, below_unbracketed below_scalar⟩
  | levels + 1 => nested (value levels)

end StyleScope.Json
