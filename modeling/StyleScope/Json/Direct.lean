import StyleScope.Json.Values

/-!
# Values that are read as what they are wanted for

The outer parts of a text are read straight into what is wanted, so that a wrong value is a fault as
soon as it comes. `levels` is how many brackets a value may open within each other.
-/

namespace StyleScope.Json

variable {α : Type}

def Reader.string : Reader String where
  run text :=
    match skipBlank text with
    | '"' :: rest => quotedText.run rest
    | text => notThis .string text
  shrinks text := by
    split
    · rename_i heq
      exact (quotedText.shrinks _).mono (Nat.le_of_lt (length_lt_of_skipBlank heq))
    · exact below_notThis ..

def Reader.boolean : Reader Bool where
  run text :=
    match skipBlank text with
    | 't' :: rest => (literal (.bool true) ['r', 'u', 'e'] rest).map fun _ => true
    | 'f' :: rest => (literal (.bool false) ['a', 'l', 's', 'e'] rest).map fun _ => false
    | text => notThis .boolean text
  shrinks text := by
    split
    · rename_i heq
      exact ((below_literal ..).map _).mono (length_lt_of_skipBlank heq)
    · rename_i heq
      exact ((below_literal ..).map _).mono (length_lt_of_skipBlank heq)
    · exact below_notThis ..

/-- A list of what `item` reads. -/
def Reader.list (item : (levels : Nat) → Reader α) (levels : Nat) : Reader (List α) where
  run text :=
    match skipBlank text, levels with
    | '[' :: rest, 0 => Malformed.nestedTooDeep.onNext ('[' :: rest)
    | '[' :: rest, levels + 1 => (items (item levels) true rest).closedBy closeList
    | text, _ => notThis .list text
  shrinks text := by
    split
    · exact Outcome.below_onNext ..
    · rename_i heq
      exact ((below_items ..).closedBy length_closeList_le).mono (length_lt_of_skipBlank heq)
    · exact below_notThis ..

/-- How a record is read from the inside of a list and of an object. -/
structure Inside (α : Type) where
  onList : List Char → Outcome α
  onObject : List Char → Outcome α
  below_onList : ∀ text, (onList text).Below (text.length + 1)
  below_onObject : ∀ text, (onObject text).Below (text.length + 1)

/-- A value that is a list or an object; `wanted` is what anything else is refused for. -/
def eitherBracket (wanted : Wanted) (inside : (levels : Nat) → Inside α) :
    (levels : Nat) → Reader α
  | 0 => ⟨unbracketed (notThis wanted), below_unbracketed fun _ => below_notThis ..⟩
  | levels + 1 =>
    ⟨bracketed (inside levels).onList (inside levels).onObject (notThis wanted),
      below_bracketed (inside levels).below_onList (inside levels).below_onObject
        fun _ => below_notThis ..⟩

end StyleScope.Json
