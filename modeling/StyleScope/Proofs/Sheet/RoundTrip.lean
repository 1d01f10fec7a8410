import StyleScope.Proofs.Json.OpenBrackets
import StyleScope.Proofs.Sheet.Growth
import StyleScope.Proofs.Sheet.Written
import StyleScope.Sheet.Equality

/-!
# Round trips

A text is read as a sheet, the sheet is written, and what is written is read again. It gives the
same sheet, unless the list that was left out in the innermost bracket of the text takes a bracket
too many when it is written. Every sheet can be told from its text.
-/

namespace StyleScope

namespace Sheet

/-! ## Texts that are accepted -/

theorem eq_read_of_parse {text : String} {sheet : Sheet} (h : parse text = .ok sheet) :
    Json.readDocument (reader Json.nestingLimit) text = .ok sheet := by
  unfold parse read at h
  rcases hread : Json.readDocument (reader Json.nestingLimit) text with complaint | sheet'
  · rw [hread] at h
    cases h
  · rw [hread] at h
    cases h
    rfl

theorem depth_le_of_readDocument {levels : Nat} {text : String} {sheet : Sheet}
    (h : Json.readDocument (reader (levels + 2)) text = .ok sheet) :
    sheet.toJson.depth ≤ levels + 3 := by
  unfold Json.readDocument at h
  cases hrun : (reader (levels + 2)).run text.toList with
  | read sheet' rest =>
    rw [hrun, Json.Outcome.bind_read] at h
    unfold Json.atEnd at h
    rcases hrest : Json.skipBlank rest with _ | ⟨c, rest'⟩
    · rw [hrest] at h
      cases h
      apply Sheet.depth_le
      exact fromJson_of_sheet hrun
    · rw [hrest] at h
      cases h
  | misfit what rest =>
    rw [hrun] at h
    cases h
  | fault what unread =>
    rw [hrun] at h
    cases h

/-! ## The innermost bracket -/

/-- Rulesets within each other. The values of the declaration in the innermost one are left out. -/
def nestedRulesets : Nat → Json
  | 0 => .object [("type", .string "declaration"), ("property", .string "p")]
  | n + 1 => rulesetAround (nestedRulesets n)

def nestedNode : Nat → Node
  | 0 => .declaration "p" [] none
  | n + 1 => .ruleset [] [nestedNode n] none

theorem depth_nestedRulesets (n : Nat) : (nestedRulesets n).depth = 2 * n + 1 := by
  induction n with
  | zero => rfl
  | succ n ih =>
    simp only [nestedRulesets, rulesetAround, Json.depth, Json.depthOfMembers, Json.depthOfItems,
      ih]
    omega

theorem counted_nestedRulesets (n : Nat) : (nestedRulesets n).Counted := by
  induction n with
  | zero => exact ⟨trivial, trivial, trivial⟩
  | succ n ih => exact ⟨trivial, trivial, ⟨ih, trivial⟩, trivial⟩

theorem ofJson_nestedRulesets (n : Nat) :
    Node.ofJson (nestedRulesets n) = .ok (nestedNode n) := by
  induction n with
  | zero =>
    have hnames : ["type", "property", "values", "location"].Nodup := by simp
    have hproperty : Json.asString (.string "p") = .ok "p" := rfl
    have hreads := (((Json.Shape.Reads.required "property" hproperty).map Node.declaration).seq
      (.default "values" [] (Json.asList Value.ofJson))).seq
      (.default "location" none (Json.asOption Location.ofJson))
    exact Node.ofJson_fields .declaration hreads hnames
  | succ n ih => exact ofJson_rulesetAround ih

theorem namesKind_nestedRulesets (n : Nat) : Node.namesKind (nestedRulesets n) = true := by
  rcases n with _ | n
  · have htag : Node.tagName ∉ ["property"] := by simp [Node.tagName]
    exact namesKind_tagged _ htag
  · exact namesKind_rulesetAround _

theorem parse_nestedRulesets {n : Nat} (h : n ≤ 62) :
    parse (textOfNodes [nestedRulesets n]) = .ok ⟨"", [nestedNode n]⟩ := by
  apply parse_textOfNodes
  · exact ⟨counted_nestedRulesets n, trivial⟩
  · simp only [Json.depthOfItems, depth_nestedRulesets]
    omega
  · rw [List.mapM_cons, Node.ofOutermost?, if_pos (namesKind_nestedRulesets n),
      ofJson_nestedRulesets]
    rfl

theorem depth_nestedNode (n : Nat) : (Sheet.mk "" [nestedNode n]).toJson.depth = 2 * n + 4 := by
  have hnode : (nestedNode n).toJson.depth = 2 * n + 2 := by
    induction n with
    | zero => rfl
    | succ n ih =>
      simp only [nestedNode, Node.toJson, nodeItems, Json.depth, Json.depthOfMembers,
        Json.depthOfItems, ih]
      simp only [List.map_nil, Json.depthOfItems, locationToJson, Json.ofOption, Json.depth]
      omega
  rw [depth_toJson, nodeItems, nodeItems, Json.depthOfItems, Json.depthOfItems, hnode]
  omega

/-! ## Round trips -/

/-- A text is read back from what is written of its sheet if that is not nested too deep. It takes
one bracket too many only if the text itself takes as many as it may. -/
theorem parse_round_trip {text : String} {sheet : Sheet} (h : parse text = .ok sheet) :
    sheet.toJson.depth ≤ 128 ∧
      (Json.readDocument (reader 126) text = .ok sheet → sheet.toJson.depth ≤ 127) ∧
      (sheet.toJson.depth ≤ 127 →
        ∃ again, parse sheet.text = .ok again ∧ again = sheet ∧ again.text = sheet.text) ∧
      (sheet.toJson.depth = 128 →
        ∃ place, parse sheet.text = .error (nestedTooDeep place)) := by
  refine ⟨depth_le_of_readDocument (eq_read_of_parse h), depth_le_of_readDocument, ?_, ?_⟩
  · intro hdepth
    exact ⟨sheet, parse_text hdepth, rfl, rfl⟩
  · intro hdepth
    apply parse_text_deep
    omega

/-- An `@else` without children, with a place that is a list of lists, and a declaration that is a
list. -/
def sparseNodes : List Json :=
  [.object [("rules", .list [.object [("kind", .object [("else", .null)]),
      ("location", .list [.list [.integer 1, .integer 1, .integer 0],
        .list [.integer 2, .integer 1, .integer 9]])]]),
      ("type", .string "conditionalBlock")],
    .list [.string "declaration", .string "p"]]

def sparseSheet : Sheet :=
  ⟨"", [.conditionalBlock [⟨.fallback, none, [], ⟨⟨1, 1, 0⟩, ⟨2, 1, 9⟩⟩⟩] none,
    .declaration "p" [] none]⟩

/-- Lists that were left out and records that were written as lists come back in full. -/
theorem sparse_round_trip :
    parse (textOfNodes sparseNodes) = .ok sparseSheet ∧ sparseSheet.toJson.depth ≤ 127 ∧
      ∃ again, parse sparseSheet.text = .ok again ∧ again = sparseSheet ∧
        again.text = sparseSheet.text := by
  have hparse : (parse (textOfNodes sparseNodes)).toOption = some sparseSheet := by decide +kernel
  have hdepth : sparseSheet.toJson.depth ≤ 127 := by decide
  have hround := parse_round_trip (Json.toOption_eq_some hparse)
  exact ⟨Json.toOption_eq_some hparse, hdepth, hround.2.2.1 hdepth⟩

/-- Sixty-two rulesets are accepted but not what is written of them: the values that were left out
are written as one more bracket. -/
theorem not_read_back_at_limit :
    parse (textOfNodes [nestedRulesets 62]) = .ok ⟨"", [nestedNode 62]⟩ ∧
      parse (Sheet.mk "" [nestedNode 62]).text ≠ .ok ⟨"", [nestedNode 62]⟩ := by
  have hdepth : 127 < (Sheet.mk "" [nestedNode 62]).toJson.depth := by
    rw [depth_nestedNode]
    decide
  obtain ⟨place, hdeep⟩ := parse_text_deep hdepth
  constructor
  · exact parse_nestedRulesets (Nat.le_refl 62)
  · rw [hdeep]
    intro heq
    cases heq

/-! ## Sheets by their texts -/

theorem nesting_text (sheet : Sheet) : Json.nesting sheet.text = sheet.toJson.depth := by
  apply Json.nesting_text
  exact ⟨trivial, counted_nodes sheet.nodes, trivial⟩

theorem text_injective {sheet other : Sheet} (h : sheet.text = other.text) : sheet = other := by
  -- The sheets may be too deep for `parse`, so the reader gets as many levels as they take.
  have hsheet := reader_text sheet sheet.toJson.depth
  have hother := reader_text other sheet.toJson.depth
  have hdepth : sheet.toJson.depth = other.toJson.depth := by
    rw [← nesting_text sheet, ← nesting_text other, h]
  rw [if_pos (by omega)] at hsheet hother
  rw [h] at hsheet
  have heq := hsheet.symm.trans hother
  cases heq
  rfl

/-- An empty block is written otherwise than one that is left out. -/
example : (Sheet.mk "" [.atRule "media" [] (some []) ⟨⟨1, 1, 0⟩, ⟨1, 9, 8⟩⟩]).text ≠
    (Sheet.mk "" [.atRule "media" [] none ⟨⟨1, 1, 0⟩, ⟨1, 9, 8⟩⟩]).text := by
  intro h
  cases text_injective h

/-- What is written of a sheet is read as this very sheet, unless its brackets are nested too deep;
and no other sheet is written the same. -/
theorem written_read_back (sheet : Sheet) :
    (if Json.nesting sheet.text ≤ 127 then parse sheet.text = .ok sheet
      else ∃ place, parse sheet.text = .error (nestedTooDeep place)) ∧
    ∀ other : Sheet, other.text = sheet.text → other = sheet := by
  constructor
  · rw [nesting_text]
    split
    · exact parse_text ‹_›
    · apply parse_text_deep
      omega
  · intro other h
    exact text_injective h

end Sheet

end StyleScope
