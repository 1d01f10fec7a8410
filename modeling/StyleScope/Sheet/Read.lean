import StyleScope.Json.Direct
import StyleScope.Json.Ignored
import StyleScope.Sheet.Decode
import StyleScope.Diagnostic.Basic

/-!
# Style sheets as JSON texts

A sheet is an object with the members `sourceName` and `nodes`, or the list of these two. The sheet
and the kinds of its outermost nodes are read from the text as they come; the fields of a node are
read once the whole node is known to be JSON.
-/

namespace StyleScope

open Json (Mismatch Malformed Outcome Reader Complaint)

/-! ## Outermost nodes -/

namespace Node.Kind

/-- The name of a kind. -/
def reader : Reader Kind where
  run text :=
    match Json.skipBlank text with
    | '"' :: rest =>
      (Json.quotedText.run rest).bind fun name rest =>
        match ofName name with
        | .ok kind => .read kind rest
        | .error what => what.here rest
    | text => Json.notThis .tag text
  shrinks text := by
    split
    · rename_i heq
      have hlt := Json.length_lt_of_skipBlank heq
      refine (Json.quotedText.shrinks _).bind fun name rest h => ?_
      split
      · exact Outcome.below_read (by omega)
      · exact Outcome.below_mismatch ..
    · exact Json.below_notThis ..

end Node.Kind

namespace Node

/-- What is known of a node while its members are read, the last member first. -/
structure Draft where
  kind : Option Kind := none
  fields : List Json.Member := []

def member (value : Reader Json) (draft : Draft) (name : String) : Reader Draft :=
  if name = tagName then
    match draft.kind with
    | some _ => .misfit (.repeated name)
    | none => Json.colon.bind fun _ => Kind.reader.map fun kind => { draft with kind := some kind }
  else
    Json.colon.bind fun _ => value.map fun value =>
      { draft with fields := (name, value) :: draft.fields }

/-- The kind and the fields of a node, once all its members are known. -/
def Draft.finish (draft : Draft) : Except Mismatch (Kind × Json) :=
  match draft.kind with
  | some kind => .ok (kind, .object draft.fields.reverse)
  | none => .error (.missing tagName)

def bodyOfList (value : Reader Json) (text : List Char) : Outcome (Kind × Json) :=
  (Json.nextItem true text).bind fun more rest =>
    if more then
      (Kind.reader.run rest).bind fun kind rest =>
        (Json.listItems value false rest).map fun body => (kind, body)
    else .misfit (.missing tagName) rest

def bodyOfObject (value : Reader Json) (text : List Char) : Outcome (Kind × Json) :=
  (Json.members (member value) true {} text).check Draft.finish

theorem below_bodyOfList (value : Reader Json) (text : List Char) :
    (bodyOfList value text).Below (text.length + 1) := by
  refine (Json.below_nextItem true text).bind fun more rest h => ?_
  split
  · refine (Kind.reader.shrinks rest).bind fun kind rest' h' => ?_
    exact (((Json.below_items value false rest').map _).map _).mono (by omega)
  · exact Outcome.below_misfit ..

theorem below_bodyOfObject (value : Reader Json) (text : List Char) :
    (bodyOfObject value text).Below (text.length + 1) :=
  (Json.below_members (member value) true {} text).check _

/-- The kind and the fields of an outermost node. -/
def body : (levels : Nat) → Reader (Kind × Json) :=
  Json.eitherBracket (.tagged "Node") fun levels =>
    { onList := bodyOfList (Json.value levels)
      onObject := bodyOfObject (Json.value levels)
      below_onList := below_bodyOfList _
      below_onObject := below_bodyOfObject _ }

def reader (levels : Nat) : Reader Node where
  run text := ((body levels).run text).check fun (kind, fields) => ofBody ofJson kind fields
  shrinks text := ((body levels).shrinks text).check _

end Node

/-! ## Sheets -/

namespace Sheet

/-- What is known of a sheet while it is read. -/
structure Draft where
  sourceName : Option String := none
  nodes : Option (List Node) := none

def nodeList : (levels : Nat) → Reader (List Node) := Reader.list Node.reader

def member (levels : Nat) (draft : Draft) (name : String) : Reader Draft :=
  if name = "sourceName" then
    if draft.sourceName.isSome then .misfit (.repeated name)
    else
      Json.colon.bind fun _ => Reader.string.map fun sourceName =>
        { draft with sourceName := some sourceName }
  else if name = "nodes" then
    if draft.nodes.isSome then .misfit (.repeated name)
    else
      Json.colon.bind fun _ => (nodeList levels).map fun nodes =>
        { draft with nodes := some nodes }
  else Json.colon.bind fun _ => Json.ignored.map fun _ => draft

/-- The sheet, once all that its text says is known; `lack` is the complaint if it has no nodes. -/
def Draft.finish (lack : Mismatch) (draft : Draft) : Except Mismatch Sheet :=
  match draft.nodes with
  | some nodes => .ok ⟨draft.sourceName.getD "", nodes⟩
  | none => .error lack

def onObject (levels : Nat) (text : List Char) : Outcome Sheet :=
  (Json.members (member levels) true {} text).check (Draft.finish (.missing "nodes"))

/-- The draft of a sheet that is written as a list. -/
def draftOfList (levels : Nat) (text : List Char) : Outcome Draft :=
  (Json.nextItem true text).bind fun more rest =>
    if more then
      (Reader.string.run rest).bind fun sourceName rest =>
        (Json.nextItem false rest).bind fun more rest =>
          if more then
            ((nodeList levels).run rest).map fun nodes => ⟨some sourceName, some nodes⟩
          else .read ⟨some sourceName, none⟩ rest
    else .read {} rest

def recordName : String := "Stylesheet"

def onList (levels : Nat) (text : List Char) : Outcome Sheet :=
  (draftOfList levels text).check (Draft.finish (.tooShort 1 recordName 2))

theorem below_onObject (levels : Nat) (text : List Char) :
    (onObject levels text).Below (text.length + 1) :=
  (Json.below_members (member levels) true {} text).check _

theorem below_draftOfList (levels : Nat) (text : List Char) :
    (draftOfList levels text).Below (text.length + 1) := by
  refine (Json.below_nextItem true text).bind fun more rest h => ?_
  split
  · refine (Reader.string.shrinks rest).bind fun sourceName rest₁ h₁ => ?_
    refine (Json.below_nextItem false rest₁).bind fun more rest₂ h₂ => ?_
    split
    · exact (((nodeList levels).shrinks rest₂).map _).mono (by omega)
    · exact Outcome.below_read (by omega)
  · exact Outcome.below_read h

theorem below_onList (levels : Nat) (text : List Char) :
    (onList levels text).Below (text.length + 1) :=
  (below_draftOfList levels text).check _

def reader : (levels : Nat) → Reader Sheet :=
  Json.eitherBracket (.record recordName) fun levels =>
    ⟨onList levels, onObject levels, below_onList levels, below_onObject levels⟩

/-- The sheet that a text spells, or what is wrong with the text. -/
def read (text : String) : Except Complaint Sheet :=
  Json.readDocument (reader Json.nestingLimit) text

/-- The sheet that a text spells, or a diagnostic. -/
def parse (text : String) : Except Diagnostic Sheet :=
  (read text).mapError fun complaint =>
    .ofReading "P001" ("Failed to parse stylesheet JSON: " ++ complaint.message)

end Sheet

end StyleScope
