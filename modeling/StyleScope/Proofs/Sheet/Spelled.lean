import StyleScope.Proofs.Json.Documents
import StyleScope.Proofs.Sheet.Outermost

/-!
# Sheets that are spelled as objects

The text of a sheet with its nodes, and before them perhaps the name of its source, is read as the
sheet of the nodes that the items of its list give as outermost ones.
-/

namespace StyleScope

open Json (Outcome Reader Spelling Letter Blanks)

namespace Sheet

/-! ## Whole texts -/

theorem parse_toOption_blanks {text : String} {sheet? : Option Sheet} (after : Blanks)
    (h : ((reader Json.nestingLimit).run text.toList).Gives sheet? after.text) :
    (parse text).toOption = sheet? := by
  rw [← Json.readDocument_toOption after h]
  unfold parse read
  cases Json.readDocument (reader Json.nestingLimit) text <;> rfl

theorem parse_toOption {text : String} {sheet? : Option Sheet}
    (h : ((reader Json.nestingLimit).run text.toList).Gives sheet? []) :
    (parse text).toOption = sheet? :=
  parse_toOption_blanks .none h

/-! ## Nodes -/

theorem nodeList_gives (levels : Nat) (inside : Blanks) (inner : List Spelling.Item)
    (rest : List Char) :
    ((nodeList (levels + 1)).run ((Spelling.list inside inner).text ++ rest)).Gives
      ((Spelling.itemsWithin? levels inner).bind (List.mapM Node.ofOutermost?)) rest := by
  have hitems := Json.items_gives levels true inner rest
  rw [← Json.items_blanks _ _ inside] at hitems
  simp only [Spelling.text, List.cons_append, List.append_assoc]
  have hnodes := hitems.decoded (Json.items_decoded (Node.reader_decoded levels) _ _)
  exact hnodes.closedBy (Json.closeList_bracket rest)

/-! ## Members -/

theorem string_run_quoted (blanks : Blanks) (letters : List Letter) (rest : List Char) :
    (Reader.string.run (blanks.text ++ (Letter.quoted letters ++ rest))).Gives
      (Letter.string? letters) rest := by
  simp only [Reader.string, Json.skipBlank_blanks, Letter.quoted, List.cons_append,
    List.append_assoc, List.nil_append]
  rw [Json.skipBlank_cons rfl]
  exact Json.quotedText_letters letters rest

theorem nodeList_blanks (levels : Nat) (blanks : Blanks) (text : List Char) :
    (nodeList levels).run (blanks.text ++ text) = (nodeList levels).run text := by
  unfold nodeList Reader.list
  simp only [Json.skipBlank_blanks]

section

variable (levels : Nat) (first : Bool) (draft : Draft) (before afterName beforeValue after : Blanks)
  {name : List Letter} (rest : List Char)

theorem members_sourceName (hname : Letter.string? name = some "sourceName")
    (hdraft : draft.sourceName = none) (letters : List Letter) (inner : List Spelling.Member)
    {f : String → Option Draft}
    (hinner : ∀ sourceName, Letter.string? letters = some sourceName →
      (Json.members (member levels) false { draft with sourceName := some sourceName }
        (Spelling.textOfMembers false inner ++ '}' :: rest)).Gives (f sourceName) ('}' :: rest)) :
    (Json.members (member levels) first draft
      (Spelling.textOfMembers first
        (⟨before, name, afterName, beforeValue, .string letters, after⟩ :: inner) ++
          '}' :: rest)).Gives ((Letter.string? letters).bind f) ('}' :: rest) := by
  rw [Json.members_spelled _ _ _ _ hname]
  simp only [member, hdraft, Option.isSome_none, Bool.false_eq_true, ↓reduceIte,
    Json.colon_bind_run, Spelling.text]
  change ((Reader.string.run _).map _).bind _ |>.Gives _ _
  rw [Outcome.map_bind]
  apply (string_run_quoted beforeValue letters _).bind
  intro sourceName hsource
  rw [Json.members_blanks]
  exact hinner sourceName hsource

theorem members_nodes (hname : Letter.string? name = some "nodes") (hdraft : draft.nodes = none)
    (inside : Blanks) (inner : List Spelling.Item) :
    (Json.members (member (levels + 1)) first draft
      (Spelling.textOfMembers first
        [⟨before, name, afterName, beforeValue, .list inside inner, after⟩] ++ '}' :: rest)).Gives
      (((Spelling.itemsWithin? levels inner).bind (List.mapM Node.ofOutermost?)).map
        fun nodes => { draft with nodes := some nodes }) ('}' :: rest) := by
  rw [Json.members_spelled _ _ _ _ hname]
  simp only [member, hdraft, Option.isSome_none, Bool.false_eq_true, ↓reduceIte,
    Json.colon_bind_run, show ("nodes" = "sourceName") = False by simp]
  change (((nodeList _).run _).map _).bind _ |>.Gives _ _
  rw [Outcome.map_bind, nodeList_blanks, Option.map_eq_bind]
  apply (nodeList_gives levels inside inner _).bind
  intro nodes _
  rw [Json.members_blanks, Spelling.textOfMembers, List.nil_append, Json.members_eq,
    Json.nextName_brace]
  exact Outcome.gives_read _ _

end

/-! ## Objects -/

theorem reader_object_blanks (levels : Nat) (before inside : Blanks) (inner : List Spelling.Member)
    (rest : List Char) {draft? : Option Draft}
    (h : (Json.members (member levels) true {}
      (Spelling.textOfMembers true inner ++ '}' :: rest)).Gives draft? ('}' :: rest)) :
    ((reader (levels + 1)).run (before.text ++ ((Spelling.object inside inner).text ++ rest))).Gives
      (draft?.bind fun draft => (draft.finish (.missing "nodes")).toOption) rest := by
  have hrun : ∀ text, (reader (levels + 1)).run (before.text ++ '{' :: text) =
      (onObject levels text).closedBy Json.closeObject := by
    intro text
    change Json.bracketed _ _ _ _ = _
    rw [Json.bracketed_blanks, Json.bracketed, Json.skipBlank_cons rfl]
    rfl
  rw [← Json.members_blanks _ _ _ inside] at h
  simp only [Spelling.text, List.cons_append, List.append_assoc, List.nil_append, hrun]
  have hfinish := h.decoded (Json.read?_check (Draft.finish (.missing "nodes")) _).symm
  exact hfinish.closedBy (Json.closeObject_brace rest)

theorem reader_object (levels : Nat) (inner : List Spelling.Member) {draft? : Option Draft}
    (h : (Json.members (member levels) true {}
      (Spelling.textOfMembers true inner ++ ['}'])).Gives draft? ['}']) :
    ((reader (levels + 1)).run (Spelling.object .none inner).text).Gives
      (draft?.bind fun draft => (draft.finish (.missing "nodes")).toOption) [] := by
  have hblanks := reader_object_blanks levels .none .none inner [] h
  rw [List.append_nil] at hblanks
  exact hblanks

theorem reader_nodes (levels : Nat) {name : List Letter} (hname : Letter.string? name = some "nodes")
    (inside : Blanks) (inner : List Spelling.Item) :
    ((reader (levels + 2)).run (Spelling.object .none
      [⟨.none, name, .none, .none, .list inside inner, .none⟩]).text).Gives
      (((Spelling.itemsWithin? levels inner).bind (List.mapM Node.ofOutermost?)).map
        (Sheet.mk "")) [] := by
  have hnodes := members_nodes levels true {} .none .none .none .none [] hname rfl
    inside inner
  have hsheet := reader_object (levels + 1) _ hnodes
  simp only [Option.bind_map] at hsheet
  rw [Option.map_eq_bind]
  exact hsheet

theorem reader_sourceName_nodes (levels : Nat) {name name' source : List Letter}
    {sourceName : String} (hname : Letter.string? name = some "sourceName")
    (hname' : Letter.string? name' = some "nodes")
    (hsource : Letter.string? source = some sourceName) (inside : Blanks)
    (inner : List Spelling.Item) :
    ((reader (levels + 2)).run (Spelling.object .none
      [⟨.none, name, .none, .none, .string source, .none⟩,
        ⟨.none, name', .none, .none, .list inside inner, .none⟩]).text).Gives
      (((Spelling.itemsWithin? levels inner).bind (List.mapM Node.ofOutermost?)).map
        (Sheet.mk sourceName)) [] := by
  have hmembers := members_sourceName (levels + 1) true {} .none .none .none .none []
    hname rfl source _ fun sourceName _ =>
      members_nodes levels false { sourceName := some sourceName } .none .none .none .none
        [] hname' rfl inside inner
  have hsheet := reader_object (levels + 1) _ hmembers
  rw [hsource] at hsheet
  simp only [Option.bind_some, Option.bind_map] at hsheet
  rw [Option.map_eq_bind]
  exact hsheet

end Sheet

end StyleScope
