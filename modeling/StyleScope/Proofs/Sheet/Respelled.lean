import StyleScope.Proofs.Sheet.KeptRecords
import StyleScope.Proofs.Sheet.Outline
import StyleScope.Proofs.Sheet.WellFormed

/-!
# The spelling of a text does not matter

Any edits of a text that is read as a sheet give a text that is read as the same sheet, unless it is
nested too deep.
-/

namespace StyleScope

open Json (Blanks Spelling)
open Relation (ReflTransGen)

namespace Sheet

/-- The value of a text is that of a sheet. -/
def SpelledBy (sheet : Sheet) (s : Spelling) : Prop :=
  ∃ json, s.valueAs? (.one .sheet) = some json ∧ decode? json = some sheet

theorem spelledBy_of_edit {sheet : Sheet} {s s' : Spelling} (h : Spelling.Edit (.one .sheet) s s')
    (hsheet : sheet.SpelledBy s) : sheet.SpelledBy s' := by
  obtain ⟨json, hjson, hdecode⟩ := hsheet
  obtain ⟨json', hjson', halike⟩ := Spelling.alike_of_edit h nofun hjson
  exact ⟨json', hjson', halike.keeps sheet hdecode⟩

theorem spelledBy_of_edits {sheet : Sheet} {s s' : Spelling}
    (h : ReflTransGen (Spelling.Edit (.one .sheet)) s s') (hsheet : sheet.SpelledBy s) :
    sheet.SpelledBy s' := by
  induction h with
  | refl => exact hsheet
  | tail _ hedit ih => exact spelledBy_of_edit hedit ih

/-- A text that is read has a spelling. Any edits of it, with any blanks around it, are read as the
same sheet if they are not nested too deep. -/
theorem parse_respelled {text : String} {sheet : Sheet} (h : parse text = .ok sheet) :
    (∃ before s after, text = Spelling.document before s after) ∧
      ∀ before s after before' s' after', text = Spelling.document before s after →
        ReflTransGen (Spelling.Edit (.one .sheet)) s s' → s'.depth ≤ 127 →
          parse (Spelling.document before' s' after') = .ok sheet := by
  refine ⟨exists_spelling h, ?_⟩
  rintro before s after before' s' after' rfl hedits hdepth
  obtain ⟨json, hjson, hdecode⟩ := spelledBy_of_edits hedits (exists_of_parse h)
  exact parse_of_valueAs? before' after' hdepth hjson hdecode

/-- A sheet of one node, with other members before its nodes. -/
def ofNode (inside : Blanks) (others : List Spelling.Member) (node : Spelling) : Spelling :=
  .object inside (others ++ [named "nodes" (.list .none [⟨.none, node, .none⟩])])

def selectorsOfS (letters : List Json.Letter) : Spelling.Member :=
  named "selectors" (.list .none [⟨.none, .string letters, .none⟩])

/-- A ruleset without what is there by default, its kind last. -/
def shortRuleset : Spelling :=
  .object .none [selectorsOfS (plainly ['s']), named "type" (saying "ruleset")]

/-- The same ruleset with its kind first, with its children and with an escape. -/
def longRuleset : Spelling :=
  .object .none [named "type" (saying "ruleset"), named "children" (.list newline []),
    selectorsOfS [.numbered '0' '0' '7' '3' 0x73 rfl]]

/-- A member that is no field of a sheet. -/
def ofType : Spelling.Member := named "type" (.list .none [])

theorem edit_ofNode {node node' : Spelling} (h : Spelling.Edit (.one .node) node node') :
    Spelling.Edit (.one .sheet) (ofNode .none [] node) (ofNode .none [] node') :=
  @Spelling.Edit.member (.one .sheet) .none newline .none .none .none (plainly "nodes".toList) [] []
    _ _ (@Spelling.Edit.item (.many .node) .none .none .none [] [] node node' h)

theorem short_ruleset_edited :
    ReflTransGen (Spelling.Edit (.one .node)) shortRuleset longRuleset := by
  -- An escape, then the order of the members, then the default.
  have hescape : Spelling.Edit (.one .node) shortRuleset
      (.object .none [selectorsOfS [.numbered '0' '0' '7' '3' 0x73 rfl],
        named "type" (saying "ruleset")]) :=
    @Spelling.Edit.member (.one .node) .none newline .none .none .none
      (plainly "selectors".toList) [] [named "type" (saying "ruleset")] _ _
      (@Spelling.Edit.item _ .none .none .none [] [] _ _ (.string rfl))
  refine .tail (.tail (.single hescape) (.permuted (.swap _ _ []))) ?_
  refine @Spelling.Edit.written (.one .node) .none [named "type" (saying "ruleset")] [_]
    (.node .ruleset) (.optionalList "children" .node) (.list []) _ rfl ?_ rfl ?_ rfl rfl
  · simp [Record.fields, Node.Kind.fields]
  · decide

theorem short_sheet_edited :
    ReflTransGen (Spelling.Edit (.one .sheet)) (ofNode .none [] shortRuleset)
      (ofNode newline [named "sourceName" (.string []), ofType] longRuleset) := by
  have hnode := short_ruleset_edited.lift (ofNode .none []) fun _ _ => edit_ofNode
  have hinserted : Spelling.Edit (.one .sheet) (ofNode .none [] longRuleset)
      (ofNode .none [ofType] longRuleset) := by
    refine @Spelling.Edit.inserted (.one .sheet) .none [] [_] .sheet _ "type" (.list []) rfl rfl ?_
      rfl
    decide
  have hwritten : Spelling.Edit (.one .sheet) (ofNode .none [ofType] longRuleset)
      (ofNode .none [named "sourceName" (.string []), ofType] longRuleset) := by
    refine @Spelling.Edit.written (.one .sheet) .none [] [_, _] .sheet
      ⟨"sourceName", .anything, some (.string "")⟩ (.string "") (named "sourceName" (.string []))
      rfl List.mem_cons_self rfl ?_ rfl rfl
    decide
  have hblank : Spelling.Edit (.one .sheet)
      (ofNode .none [named "sourceName" (.string []), ofType] longRuleset)
      (ofNode newline [named "sourceName" (.string []), ofType] longRuleset) :=
    .object (List.forall₂_same.mpr fun _ _ => ⟨rfl, rfl⟩)
  exact .tail (.tail (.tail hnode hinserted) hwritten) hblank

theorem short_sheet_respelled :
    parse (Spelling.document .none (ofNode .none [] shortRuleset) newline) =
        .ok ⟨"", [.ruleset ["s"] [] none]⟩ ∧
      parse (Spelling.document newline
          (ofNode newline [named "sourceName" (.string []), ofType] longRuleset) .none) =
        .ok ⟨"", [.ruleset ["s"] [] none]⟩ := by
  have hread : parse (Spelling.document .none (ofNode .none [] shortRuleset) newline) =
      .ok ⟨"", [.ruleset ["s"] [] none]⟩ := Json.toOption_eq_some (by decide +kernel)
  exact ⟨hread, (parse_respelled hread).2 _ _ _ _ _ _ rfl short_sheet_edited (by decide)⟩

end Sheet

end StyleScope
