import StyleScope.Json.Quoted

/-!
# Lists and objects in a text

A list or an object is read from after its opening bracket up to its closing one, and then closed.
Closing is tried even when something inside is wrong: a misfit has its place behind what that took.
-/

namespace StyleScope.Json

variable {α σ : Type}

/-! ## Closing -/

/-- What closing a bracket leaves of the text, and what went wrong. -/
structure Closing where
  problem : Option Malformed
  rest : List Char

def closeList (text : List Char) : Closing :=
  match skipBlank text with
  | [] => ⟨some .endInList, []⟩
  | ']' :: rest => ⟨none, rest⟩
  | ',' :: rest =>
    match skipBlank rest with
    | ']' :: rest => ⟨some .trailingComma, ']' :: rest⟩
    | rest => ⟨some .trailingText, rest⟩
  | rest => ⟨some .trailingText, rest⟩

def closeObject (text : List Char) : Closing :=
  match skipBlank text with
  | [] => ⟨some .endInObject, []⟩
  | '}' :: rest => ⟨none, rest⟩
  | ',' :: rest => ⟨some .trailingComma, ',' :: rest⟩
  | rest => ⟨some .trailingText, rest⟩

/-- The outcome of what stands between two brackets, once the second is closed. -/
def Outcome.closedBy (close : List Char → Closing) : Outcome α → Outcome α
  | .read value rest =>
    match close rest with
    | ⟨none, rest⟩ => .read value rest
    | ⟨some what, rest⟩ => what.onNext rest
  | .misfit what rest => what.here (close rest).rest
  | .fault what unread => .fault what unread

/-! ## What comes next -/

/-- Whether another item follows; only the `first` one needs no comma before it. -/
def nextItem (first : Bool) (text : List Char) : Outcome Bool :=
  match skipBlank text with
  | [] => Malformed.endInList.onNext []
  | ']' :: rest => .read false (']' :: rest)
  | c :: rest =>
    if first then .read true (c :: rest)
    else if c = ',' then
      match skipBlank rest with
      | [] => Malformed.endInValue.onNext []
      | ']' :: rest => Malformed.trailingComma.onNext (']' :: rest)
      | rest => .read true rest
    else Malformed.expectedListEnd.onNext (c :: rest)

/-- The name of the next member, if there is one. -/
def nextName (first : Bool) (text : List Char) : Outcome (Option String) :=
  match skipBlank text with
  | [] => Malformed.endInObject.onNext []
  | '}' :: rest => .read none ('}' :: rest)
  | c :: rest =>
    if first then
      if c = '"' then (quotedText.run rest).map some else Malformed.expectedName.onNext (c :: rest)
    else if c = ',' then
      match skipBlank rest with
      | [] => Malformed.endInValue.onNext []
      | '"' :: rest => (quotedText.run rest).map some
      | '}' :: rest => Malformed.trailingComma.onNext ('}' :: rest)
      | rest => Malformed.expectedName.onNext rest
    else Malformed.expectedObjectEnd.onNext (c :: rest)

def afterColon (text : List Char) : Outcome Unit :=
  match skipBlank text with
  | [] => Malformed.endInObject.onNext []
  | ':' :: rest => .read () rest
  | rest => Malformed.expectedColon.onNext rest

/-! ## What is left -/

theorem length_closeList_le (text : List Char) : (closeList text).rest.length ≤ text.length := by
  have hle := length_skipBlank_le text
  unfold closeList
  split
  · simp
  · rename_i rest heq
    rw [heq] at hle
    exact Nat.le_of_lt hle
  · rename_i rest heq
    rw [heq] at hle
    have hle' := length_skipBlank_le rest
    simp only [List.length_cons] at hle
    split
    · rename_i heq'
      rw [heq'] at hle'
      dsimp only
      omega
    · dsimp only
      omega
  · exact hle

theorem length_closeObject_le (text : List Char) :
    (closeObject text).rest.length ≤ text.length := by
  have hle := length_skipBlank_le text
  unfold closeObject
  split
  · simp
  · rename_i rest heq
    rw [heq] at hle
    exact Nat.le_of_lt hle
  · rename_i rest heq
    rw [heq] at hle
    exact hle
  · exact hle

theorem Outcome.Below.closedBy {close : List Char → Closing}
    (hclose : ∀ text, (close text).rest.length ≤ text.length) {o : Outcome α} {n : Nat}
    (h : o.Below n) : (o.closedBy close).Below n := by
  cases o with
  | read value rest =>
    have hrest := h rfl
    have hle := hclose rest
    simp only [Outcome.closedBy]
    split
    · rename_i heq
      rw [heq] at hle
      exact below_read (Nat.lt_of_le_of_lt hle hrest)
    · exact below_onNext ..
  | misfit what rest => exact below_mismatch ..
  | fault what unread => exact below_fault ..

theorem below_nextItem (first : Bool) (text : List Char) :
    (nextItem first text).Below (text.length + 1) := by
  have hle := length_skipBlank_le text
  unfold nextItem
  split
  · exact Outcome.below_onNext ..
  · rename_i heq
    rw [heq] at hle
    exact Outcome.below_read (Nat.lt_succ_of_le hle)
  · rename_i c rest _ heq
    rw [heq] at hle
    split
    · exact Outcome.below_read (Nat.lt_succ_of_le hle)
    · split
      · have hle' := length_skipBlank_le rest
        simp only [List.length_cons] at hle
        split
        · exact Outcome.below_onNext ..
        · exact Outcome.below_onNext ..
        · exact Outcome.below_read (by omega)
      · exact Outcome.below_onNext ..

theorem below_nextName (first : Bool) (text : List Char) :
    (nextName first text).Below (text.length + 1) := by
  have hle := length_skipBlank_le text
  unfold nextName
  split
  · exact Outcome.below_onNext ..
  · rename_i heq
    rw [heq] at hle
    exact Outcome.below_read (Nat.lt_succ_of_le hle)
  · rename_i c rest _ heq
    rw [heq] at hle
    simp only [List.length_cons] at hle
    split
    · split
      · exact ((quotedText.shrinks rest).map some).mono (by omega)
      · exact Outcome.below_onNext ..
    · split
      · have hle' := length_skipBlank_le rest
        split
        · exact Outcome.below_onNext ..
        · rename_i rest' heq'
          rw [heq'] at hle'
          simp only [List.length_cons] at hle'
          exact ((quotedText.shrinks rest').map some).mono (by omega)
        · exact Outcome.below_onNext ..
        · exact Outcome.below_onNext ..
      · exact Outcome.below_onNext ..

theorem below_afterColon (text : List Char) : (afterColon text).Below text.length := by
  unfold afterColon
  split
  · exact Outcome.below_onNext ..
  · rename_i heq
    exact Outcome.below_read (length_lt_of_skipBlank heq)
  · exact Outcome.below_onNext ..

/-- The colon between a name and its value. -/
def colon : Reader Unit := ⟨afterColon, below_afterColon⟩

/-! ## All items, all members -/

/-- The items up to the closing bracket of a list. -/
def items (item : Reader α) (first : Bool) (text : List Char) : Outcome (List α) :=
  match _h₁ : nextItem first text with
  | .read false rest => .read [] rest
  | .read true rest =>
    match _h₂ : item.run rest with
    | .read value rest' => (items item false rest').map (value :: ·)
    | .misfit what rest => .misfit what rest
    | .fault what unread => .fault what unread
  | .misfit what rest => .misfit what rest
  | .fault what unread => .fault what unread
termination_by text.length
decreasing_by
  have := below_nextItem first text ‹_›
  have := item.shrinks rest ‹_›
  omega

/-- What the members up to the closing brace of an object make of a state, one after the other. Each
is read from after its name. -/
def members (member : σ → String → Reader σ) (first : Bool) (state : σ) (text : List Char) :
    Outcome σ :=
  match _h₁ : nextName first text with
  | .read none rest => .read state rest
  | .read (some name) rest =>
    match _h₂ : (member state name).run rest with
    | .read state' rest' => members member false state' rest'
    | .misfit what rest => .misfit what rest
    | .fault what unread => .fault what unread
  | .misfit what rest => .misfit what rest
  | .fault what unread => .fault what unread
termination_by text.length
decreasing_by
  have := below_nextName first text ‹_›
  have := (member state name).shrinks rest ‹_›
  omega

theorem below_items (item : Reader α) (first : Bool) (text : List Char) :
    (items item first text).Below (text.length + 1) := by
  fun_induction items item first text with
  | case1 first text rest h => exact Outcome.below_read (below_nextItem first text h)
  | case2 first text rest h value rest' h' ih =>
    have hlt := below_nextItem first text h
    have hlt' := item.shrinks rest h'
    exact (ih.map _).mono (by omega)
  | case3 => exact Outcome.below_misfit ..
  | case4 => exact Outcome.below_fault ..
  | case5 => exact Outcome.below_misfit ..
  | case6 => exact Outcome.below_fault ..

theorem below_members (member : σ → String → Reader σ) (first : Bool) (state : σ)
    (text : List Char) : (members member first state text).Below (text.length + 1) := by
  fun_induction members member first state text with
  | case1 first state text rest h => exact Outcome.below_read (below_nextName first text h)
  | case2 first state text name rest h state' rest' h' ih =>
    have hlt := below_nextName first text h
    have hlt' := (member state name).shrinks rest h'
    exact ih.mono (by omega)
  | case3 => exact Outcome.below_misfit ..
  | case4 => exact Outcome.below_fault ..
  | case5 => exact Outcome.below_misfit ..
  | case6 => exact Outcome.below_fault ..

/-! ## Either bracket -/

/-- A list by `onList`, an object by `onObject`, anything else by `otherwise`. -/
def bracketed (onList onObject otherwise : List Char → Outcome α) (text : List Char) : Outcome α :=
  match skipBlank text with
  | '[' :: rest => (onList rest).closedBy closeList
  | '{' :: rest => (onObject rest).closedBy closeObject
  | text => otherwise text

/-- Anything but a bracket by `otherwise`; a bracket would be nested too deep. -/
def unbracketed (otherwise : List Char → Outcome α) (text : List Char) : Outcome α :=
  match skipBlank text with
  | '[' :: rest => Malformed.nestedTooDeep.onNext ('[' :: rest)
  | '{' :: rest => Malformed.nestedTooDeep.onNext ('{' :: rest)
  | text => otherwise text

theorem below_bracketed {onList onObject otherwise : List Char → Outcome α}
    (hlist : ∀ text, (onList text).Below (text.length + 1))
    (hobject : ∀ text, (onObject text).Below (text.length + 1))
    (hother : ∀ text, (otherwise text).Below text.length) (text : List Char) :
    (bracketed onList onObject otherwise text).Below text.length := by
  have hle := length_skipBlank_le text
  unfold bracketed
  split
  · rename_i rest heq
    rw [heq] at hle
    exact ((hlist rest).closedBy length_closeList_le).mono hle
  · rename_i rest heq
    rw [heq] at hle
    exact ((hobject rest).closedBy length_closeObject_le).mono hle
  · exact (hother _).mono hle

theorem below_unbracketed {otherwise : List Char → Outcome α}
    (hother : ∀ text, (otherwise text).Below text.length) (text : List Char) :
    (unbracketed otherwise text).Below text.length := by
  have hle := length_skipBlank_le text
  unfold unbracketed
  split
  · exact Outcome.below_onNext ..
  · exact Outcome.below_onNext ..
  · exact (hother _).mono hle

end StyleScope.Json
