import StyleScope.Json.Outcome

/-!
# Readers

A `Reader` takes at least one character when it succeeds, so that a loop over readers comes to an
end. A whole text is what one reader takes, with nothing but blanks behind it.
-/

namespace StyleScope.Json

variable {α β : Type}

/-- A reader that takes at least one character when it succeeds. -/
structure Reader (α : Type) where
  run : List Char → Outcome α
  shrinks : ∀ text, (run text).Below text.length

namespace Reader

def bind (r : Reader α) (next : α → Reader β) : Reader β where
  run text := (r.run text).bind fun value rest => (next value).run rest
  shrinks text := (r.shrinks text).bind fun value rest hlt =>
    ((next value).shrinks rest).mono (Nat.le_of_lt hlt)

def map (f : α → β) (r : Reader α) : Reader β where
  run text := (r.run text).map f
  shrinks text := (r.shrinks text).map f

/-- Takes nothing and never succeeds. -/
def misfit (what : Mismatch) : Reader α where
  run text := .misfit what text
  shrinks text := Outcome.below_misfit what text text.length

end Reader

/-! ## Blanks -/

/-- The characters that may stand between the parts of a JSON text. -/
def isBlank (c : Char) : Bool := c = ' ' || c = '\n' || c = '\t' || c = '\r'

/-- The text from its first character that is no blank. -/
def skipBlank (text : List Char) : List Char := text.dropWhile isBlank

theorem length_skipBlank_le (text : List Char) : (skipBlank text).length ≤ text.length :=
  (List.dropWhile_suffix _).length_le

theorem length_lt_of_skipBlank {text rest : List Char} {c : Char} (h : skipBlank text = c :: rest) :
    rest.length < text.length := by
  have := length_skipBlank_le text
  rw [h] at this
  exact this

/-! ## Whole texts -/

/-- How many brackets of a text may be open at once. -/
def nestingLimit : Nat := 127

/-- What is wrong with a text, and where. -/
structure Complaint where
  what : Fault
  place : Text.Place
deriving DecidableEq, Repr

def Complaint.message (complaint : Complaint) : String :=
  complaint.what.message ++ complaint.place.text

/-- Nothing but blanks may follow the value of a text. -/
def atEnd (value : α) (text : List Char) : Outcome α :=
  match skipBlank text with
  | [] => .read value []
  | rest => Malformed.trailingText.onNext rest

/-- The value that a text consists of. -/
def readDocument (reader : Reader α) (text : String) : Except Complaint α :=
  match (reader.run text.toList).bind atEnd with
  | .read value _ => .ok value
  | .misfit what rest =>
    .error ⟨.mismatch what, .before (Text.byteCount rest) text.toList⟩
  | .fault what unread => .error ⟨what, .before unread text.toList⟩

end StyleScope.Json
