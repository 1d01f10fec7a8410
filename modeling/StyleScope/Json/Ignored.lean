import StyleScope.Json.Brackets
import StyleScope.Json.Numeral
import StyleScope.Json.Values

/-!
# Values that nobody asks for

Only the form of such a value is checked: numbers may be of any size, surrogates may stand alone,
and brackets may be nested as deep as one likes. The open brackets are kept in a list, innermost
first.
-/

namespace StyleScope.Json

inductive Bracket where
  | list
  | object
deriving DecidableEq, Repr

/-! ## Scalars -/

def skipExponent (text : List Char) : Outcome Unit :=
  match (exponentSign text).2 with
  | [] => Malformed.invalidNumber.onNext []
  | c :: rest =>
    if c.isDigit then .read () (rest.dropWhile Char.isDigit)
    else Malformed.invalidNumber.onNext (c :: rest)

def skipExponent? (text : List Char) : Outcome Unit :=
  match text with
  | 'e' :: rest | 'E' :: rest => skipExponent rest
  | _ => .read () text

/-- What may follow the digits before the point. -/
def skipAfterWhole (text : List Char) : Outcome Unit :=
  match text with
  | '.' :: rest =>
    if startsWithDigit rest then skipExponent? (rest.dropWhile Char.isDigit)
    else Malformed.invalidNumber.onNext rest
  | _ => skipExponent? text

/-- A number, from after its sign. -/
def skipNumeral (text : List Char) : Outcome Unit :=
  match text with
  | [] => Malformed.invalidNumber.onNext []
  | '0' :: rest =>
    if startsWithDigit rest then Malformed.invalidNumber.onNext rest else skipAfterWhole rest
  | c :: rest =>
    if c.isDigit then skipAfterWhole (rest.dropWhile Char.isDigit)
    else Malformed.invalidNumber.onNext (c :: rest)

/-- An escape, from after its backslash; four hexadecimal digits may be any. -/
def skipEscape : Reader Unit where
  run := escapeWith (fun _ => ()) fun text => (hexWord text).map fun _ => ()
  shrinks := below_escapeWith _ fun text => (below_hexWord text).map _

/-- A string, from after its opening quote. -/
def skipQuoted : Reader Unit where
  run text :=
    (charsWith skipEscape (fun _ => ()) Malformed.controlCharacter.here text).map fun _ => ()
  shrinks text :=
    (below_charsWith skipEscape (fun _ => ()) (fun _ _ => Outcome.below_here ..) text).map _

/-- A value without brackets; no blanks stand before it. -/
def skipScalar (text : List Char) : Outcome Unit :=
  match text with
  | '"' :: rest => skipQuoted.run rest
  | '-' :: rest => skipNumeral rest
  | c :: rest =>
    if c.isDigit then skipNumeral (c :: rest) else (scalar (c :: rest)).map fun _ => ()
  | [] => Malformed.endInValue.onNext []

/-- The name of a member and the colon after it; no blanks stand before it. -/
def skipName (text : List Char) : Outcome Unit :=
  match text with
  | [] => Malformed.endInObject.onNext []
  | '"' :: rest => (skipQuoted.run rest).bind fun _ rest => afterColon rest
  | _ => Malformed.expectedName.onNext text

/-! ## What is left -/

theorem below_skipExponent {text : List Char} {n : Nat} (h : text.length < n) :
    (skipExponent text).Below n := by
  have hsign := length_exponentSign_le text
  unfold skipExponent
  split
  · exact Outcome.below_onNext ..
  · rename_i c rest heq
    rw [heq] at hsign
    simp only [List.length_cons] at hsign
    have := length_dropDigits_le rest
    split
    · exact Outcome.below_read (by omega)
    · exact Outcome.below_onNext ..

theorem below_skipExponent? {text : List Char} {n : Nat} (h : text.length < n) :
    (skipExponent? text).Below n := by
  unfold skipExponent?
  split
  · exact below_skipExponent (by simp only [List.length_cons] at h; omega)
  · exact below_skipExponent (by simp only [List.length_cons] at h; omega)
  · exact Outcome.below_read h

theorem below_skipAfterWhole {text : List Char} {n : Nat} (h : text.length < n) :
    (skipAfterWhole text).Below n := by
  unfold skipAfterWhole
  split
  · rename_i rest
    have := length_dropDigits_le rest
    simp only [List.length_cons] at h
    split
    · exact below_skipExponent? (by omega)
    · exact Outcome.below_onNext ..
  · exact below_skipExponent? h

theorem below_skipNumeral (text : List Char) : (skipNumeral text).Below text.length := by
  unfold skipNumeral
  split
  · exact Outcome.below_onNext ..
  · split
    · exact Outcome.below_onNext ..
    · exact below_skipAfterWhole (by simp)
  · rename_i c rest _
    have := length_dropDigits_le rest
    split
    · exact below_skipAfterWhole (by simp only [List.length_cons]; omega)
    · exact Outcome.below_onNext ..

theorem below_skipScalar (text : List Char) : (skipScalar text).Below text.length := by
  unfold skipScalar
  split
  · exact (skipQuoted.shrinks _).mono (by simp)
  · exact (below_skipNumeral _).mono (by simp)
  · split
    · exact below_skipNumeral _
    · exact (below_scalar _).map _
  · exact Outcome.below_onNext ..

theorem below_skipName (text : List Char) : (skipName text).Below text.length := by
  unfold skipName
  split
  · exact Outcome.below_onNext ..
  · refine (skipQuoted.shrinks _).bind fun _ rest h => ?_
    exact (below_afterColon rest).mono (by simp only [List.length_cons]; omega)
  · exact Outcome.below_onNext ..

/-! ## Any value -/

/-- What comes next: a value, or what stands behind one. -/
inductive Pending where
  | value (opened : List Bracket)
  | behind (opened : List Bracket)
deriving DecidableEq, Repr

/-- Takes a scalar, an empty list or object, or an opening bracket with what must follow it. -/
def skipValue (opened : List Bracket) (text : List Char) : Outcome Pending :=
  match skipBlank text with
  | '[' :: rest =>
    match skipBlank rest with
    | [] => Malformed.endInList.onNext []
    | ']' :: rest => .read (.behind opened) rest
    | rest => .read (.value (.list :: opened)) rest
  | '{' :: rest =>
    match skipBlank rest with
    | '}' :: rest => .read (.behind opened) rest
    | rest => (skipName rest).map fun _ => .value (.object :: opened)
  | text => (skipScalar text).map fun _ => .behind opened

/-- Takes a comma with what must follow it, or the bracket that closes the innermost one. -/
def skipBehind (innermost : Bracket) (outer : List Bracket) (text : List Char) : Outcome Pending :=
  match innermost, skipBlank text with
  | .list, [] => Malformed.endInList.onNext []
  | .list, ']' :: rest => .read (.behind outer) rest
  | .list, ',' :: rest => .read (.value (.list :: outer)) rest
  | .list, rest => Malformed.expectedListEnd.onNext rest
  | .object, [] => Malformed.endInObject.onNext []
  | .object, '}' :: rest => .read (.behind outer) rest
  | .object, ',' :: rest => (skipName (skipBlank rest)).map fun _ => .value (.object :: outer)
  | .object, rest => Malformed.expectedObjectEnd.onNext rest

theorem below_skipValue (opened : List Bracket) (text : List Char) :
    (skipValue opened text).Below text.length := by
  have hle := length_skipBlank_le text
  unfold skipValue
  split
  · rename_i rest heq
    have hlt := length_lt_of_skipBlank heq
    have hle' := length_skipBlank_le rest
    split
    · exact Outcome.below_onNext ..
    · rename_i heq'
      exact Outcome.below_read (Nat.lt_trans (length_lt_of_skipBlank heq') hlt)
    · exact Outcome.below_read (Nat.lt_of_le_of_lt hle' hlt)
  · rename_i rest heq
    have hlt := length_lt_of_skipBlank heq
    have hle' := length_skipBlank_le rest
    split
    · rename_i heq'
      exact Outcome.below_read (Nat.lt_trans (length_lt_of_skipBlank heq') hlt)
    · exact ((below_skipName _).map _).mono (by omega)
  · exact ((below_skipScalar _).map _).mono hle

theorem below_skipBehind (innermost : Bracket) (outer : List Bracket) (text : List Char) :
    (skipBehind innermost outer text).Below text.length := by
  unfold skipBehind
  split
  · exact Outcome.below_onNext ..
  · exact Outcome.below_read (length_lt_of_skipBlank ‹_›)
  · exact Outcome.below_read (length_lt_of_skipBlank ‹_›)
  · exact Outcome.below_onNext ..
  · exact Outcome.below_onNext ..
  · exact Outcome.below_read (length_lt_of_skipBlank ‹_›)
  · rename_i rest heq
    have hlt := length_lt_of_skipBlank heq
    have hle := length_skipBlank_le rest
    exact ((below_skipName _).map _).mono (by omega)
  · exact Outcome.below_onNext ..

/-- How to go on, unless nothing is open behind a value. -/
def Pending.step? : Pending → Option (Reader Pending)
  | .value opened => some ⟨skipValue opened, below_skipValue opened⟩
  | .behind [] => none
  | .behind (innermost :: outer) =>
    some ⟨skipBehind innermost outer, below_skipBehind innermost outer⟩

/-- Takes what is pending to its end. -/
def skip (pending : Pending) (text : List Char) : Outcome Unit :=
  match pending.step? with
  | none => .read () text
  | some step =>
    match _h : step.run text with
    | .read pending rest => skip pending rest
    | .misfit what rest => .misfit what rest
    | .fault what unread => .fault what unread
termination_by text.length
decreasing_by exact step.shrinks text ‹_›

theorem below_skip (pending : Pending) (text : List Char) :
    (skip pending text).Below (text.length + 1) := by
  fun_induction skip pending text with
  | case1 => exact Outcome.below_read (Nat.lt_succ_self _)
  | case2 _ text step _ _ _ h ih =>
    have := step.shrinks text h
    exact ih.mono (by omega)
  | case3 => exact Outcome.below_misfit ..
  | case4 => exact Outcome.below_fault ..

/-- A value of which nothing is kept. -/
def ignored : Reader Unit where
  run text := (skipValue [] text).bind skip
  shrinks text := (below_skipValue [] text).bind fun pending rest h =>
    (below_skip pending rest).mono h

end StyleScope.Json
