import StyleScope.Json.Direct
import StyleScope.Json.Ignored
import StyleScope.Scope.Validator

/-!
# Modes as JSON texts

The options of a validation are an object that may have the member `lenient`, or a list of at most
this one truth value. What is not given is strict.
-/

namespace StyleScope.Mode

open Json (Outcome Reader Complaint)

/-- Reads a member of the options; `lenient` is what was said before. -/
def member (lenient : Option Bool) (name : String) : Reader (Option Bool) :=
  if name = "lenient" then
    if lenient.isSome then .misfit (.repeated name)
    else Json.colon.bind fun _ => Reader.boolean.map some
  else Json.colon.bind fun _ => Json.ignored.map fun _ => lenient

/-- The mode for what the options say. -/
def ofOption (lenient : Option Bool) : Mode := ofLenient (lenient.getD false)

def onObject (text : List Char) : Outcome Mode :=
  (Json.members member true none text).map ofOption

def onList (text : List Char) : Outcome Mode :=
  (Json.nextItem true text).bind fun more rest =>
    if more then (Reader.boolean.run rest).map ofLenient else .read .strict rest

theorem below_onObject (text : List Char) : (onObject text).Below (text.length + 1) :=
  (Json.below_members member true none text).map _

theorem below_onList (text : List Char) : (onList text).Below (text.length + 1) := by
  refine (Json.below_nextItem true text).bind fun more rest h => ?_
  split
  · exact ((Reader.boolean.shrinks rest).map _).mono (by omega)
  · exact Outcome.below_read h

def reader : (levels : Nat) → Reader Mode :=
  Json.eitherBracket (.record "ValidationOptions") fun _ =>
    ⟨onList, onObject, below_onList, below_onObject⟩

/-- The mode that a text asks for, or what is wrong with the text. -/
def read (text : String) : Except Complaint Mode :=
  Json.readDocument (reader Json.nestingLimit) text

end StyleScope.Mode
