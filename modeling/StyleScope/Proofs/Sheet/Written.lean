import StyleScope.Proofs.Json.Writing
import StyleScope.Proofs.Sheet.Decoding
import StyleScope.Proofs.Sheet.Levels
import StyleScope.Proofs.Sheet.Spelled

/-!
# Reading the text of a sheet

The text of a sheet is read as the sheet, unless it is nested deeper than a text may be.
-/

namespace StyleScope

open Json (Outcome Spelling Letter)

/-! ## Numbers -/

theorem counted_word (n : UInt32) : (Json.ofWord n).Counted := by
  have hlt : n.toNat < 2 ^ 32 := n.toNat_lt
  refine ⟨n.toNat, ?_, rfl⟩
  unfold Json.greatestSignificand
  omega

theorem counted_location (location : Location) : location.toJson.Counted := by
  have hposition : ∀ position : Position, position.toJson.Counted := by
    intro position
    exact ⟨counted_word _, counted_word _, counted_word _, trivial⟩
  exact ⟨hposition _, hposition _, trivial⟩

theorem counted_optionalLocation (location : Option Location) :
    (locationToJson location).Counted := by
  rcases location with _ | location
  · trivial
  · exact counted_location location

theorem counted_map {α : Type} {write : α → Json} (h : ∀ a, (write a).Counted) (as : List α) :
    Json.CountedItems (as.map write) := by
  induction as with
  | nil => trivial
  | cons a as ih => exact ⟨h a, ih⟩

theorem counted_values (values : List Value) : (valuesToJson values).Counted := by
  apply counted_map
  intro value
  exact ⟨trivial, counted_optionalLocation value.location, trivial⟩

theorem counted_strings (strings : List String) :
    Json.CountedItems (strings.map .string) := by
  apply counted_map
  intro s
  trivial

mutual

theorem counted_node (node : Node) : node.toJson.Counted := by
  match node with
  | .conditionalBlock branches location =>
    exact ⟨trivial, counted_branches branches, counted_optionalLocation location, trivial⟩
  | .definition name values location =>
    exact ⟨trivial, trivial, counted_values values, counted_location location, trivial⟩
  | .atRule name params none location =>
    exact ⟨trivial, trivial, counted_values params, trivial, counted_location location, trivial⟩
  | .atRule name params (some nodes) location =>
    exact ⟨trivial, trivial, counted_values params, counted_nodes nodes, counted_location location,
      trivial⟩
  | .ruleset selectors children location =>
    exact ⟨trivial, counted_strings selectors, counted_nodes children,
      counted_optionalLocation location, trivial⟩
  | .declaration property values location =>
    exact ⟨trivial, trivial, counted_values values, counted_optionalLocation location, trivial⟩

theorem counted_branch (branch : Branch) : branch.toJson.Counted := by
  match branch with
  | ⟨kind, condition, children, location⟩ =>
    have hcondition : (Json.ofOption .string condition).Counted := by cases condition <;> trivial
    exact ⟨trivial, hcondition, counted_nodes children, counted_location location, trivial⟩

theorem counted_nodes (nodes : List Node) : Json.CountedItems (nodeItems nodes) := by
  match nodes with
  | [] => trivial
  | node :: nodes => exact ⟨counted_node node, counted_nodes nodes⟩

theorem counted_branches (branches : List Branch) : Json.CountedItems (branchItems branches) := by
  match branches with
  | [] => trivial
  | branch :: branches => exact ⟨counted_branch branch, counted_branches branches⟩

end

/-! ## Nodes -/

theorem namesKind_tagged (kind : String) {fields : List Json.Member}
    (h : Node.tagName ∉ fields.map Prod.fst) :
    Node.namesKind (.object ((Node.tagName, .string kind) :: fields)) = true := by
  have hnone : fields.filter (·.1 = Node.tagName) = [] := by
    rw [List.filter_eq_nil_iff]
    intro member hm heq
    apply h
    rw [← of_decide_eq_true heq]
    exact List.mem_map_of_mem hm
  rw [Node.namesKind, Node.tag?, List.filter_cons_of_pos (by simp), hnone]
  rfl

-- The names of the fields are string literals, which only the kernel compares in good time.
theorem namesKind_toJson (node : Node) : Node.namesKind node.toJson = true := by
  cases node with
  | conditionalBlock branches location =>
    have htag : Node.tagName ∉ ["rules", "location"] := by simp [Node.tagName]
    exact namesKind_tagged _ htag
  | definition name values location =>
    have htag : Node.tagName ∉ ["name", "values", "location"] := by simp [Node.tagName]
    exact namesKind_tagged _ htag
  | atRule name params block location =>
    have htag : Node.tagName ∉ ["name", "params", "block", "location"] := by simp [Node.tagName]
    cases block <;> exact namesKind_tagged _ htag
  | ruleset selectors children location =>
    have htag : Node.tagName ∉ ["selectors", "children", "location"] := by simp [Node.tagName]
    exact namesKind_tagged _ htag
  | declaration property values location =>
    have htag : Node.tagName ∉ ["property", "values", "location"] := by simp [Node.tagName]
    exact namesKind_tagged _ htag

theorem namesKind_rulesetAround (json : Json) : Node.namesKind (rulesetAround json) = true := by
  have htag : Node.tagName ∉ ["selectors", "children"] := by simp [Node.tagName]
  exact namesKind_tagged _ htag

theorem ofOutermost?_toJson (node : Node) : Node.ofOutermost? node.toJson = some node := by
  unfold Node.ofOutermost?
  rw [if_pos (namesKind_toJson node), node.ofJson_toJson]
  rfl

theorem mapM_ofOutermost? (nodes : List Node) :
    (nodeItems nodes).mapM Node.ofOutermost? = some nodes := by
  induction nodes with
  | nil => rfl
  | cons node nodes ih =>
    rw [nodeItems, List.mapM_cons, ofOutermost?_toJson, ih]
    rfl

/-! ## Sheets -/

namespace Sheet

theorem depth_toJson (sheet : Sheet) :
    sheet.toJson.depth = Json.depthOfItems (nodeItems sheet.nodes) + 2 := by
  simp [toJson, Json.depth, Json.depthOfMembers]

theorem reader_text (sheet : Sheet) (levels : Nat) :
    ((reader (levels + 2)).run sheet.text.toList).Gives
      (if sheet.toJson.depth ≤ levels + 2 then some sheet else none) [] := by
  obtain ⟨name, hname, hname?⟩ := Json.exists_letters "sourceName"
  obtain ⟨name', hname', hname'?⟩ := Json.exists_letters "nodes"
  obtain ⟨source, hsource, hsource?⟩ := Json.exists_letters sheet.sourceName
  obtain ⟨inner, hinner, -, hitems, hdepth⟩ := Json.exists_items _ (counted_nodes sheet.nodes)
  have hsheet := reader_sourceName_nodes levels hname? hname'? hsource? .none inner
  have htext : sheet.text.toList = (Spelling.object .none
      [⟨.none, name, .none, .none, .string source, .none⟩,
        ⟨.none, name', .none, .none, .list .none inner, .none⟩]).text := by
    simp only [text, Json.text, String.toList_ofList, toJson, Json.write, Json.writeMembers,
      Spelling.text, Spelling.textOfMembers, Json.Blanks.none, Spelling.comma, ↓reduceIte,
      Bool.false_eq_true, List.nil_append, List.cons_append, List.append_assoc, hname, hname',
      hsource, ← hinner, Json.writeString]
  rw [htext]
  unfold Spelling.itemsWithin? at hsheet
  rw [hdepth, hitems] at hsheet
  simp only [depth_toJson, Nat.add_le_add_iff_right]
  by_cases hle : Json.depthOfItems (nodeItems sheet.nodes) ≤ levels
  · rw [if_pos hle, Option.bind_some, mapM_ofOutermost?] at hsheet
    rw [if_pos hle]
    exact hsheet
  · rw [if_neg hle] at hsheet ⊢
    exact hsheet

/-- The diagnostic about a text in which brackets are nested too deep. -/
def nestedTooDeep (place : Text.Place) : Diagnostic where
  code := "P001"
  phase := .parse
  severity := .error
  message := "Failed to parse stylesheet JSON: recursion limit exceeded at line " ++
    place.line.repr ++ " column " ++ place.column.repr
  location := none
  enclosing := none

theorem ofReading_nestedTooDeep (place : Text.Place) :
    .ofReading "P001" ("Failed to parse stylesheet JSON: " ++
      Json.Complaint.message ⟨.malformed .nestedTooDeep, place⟩) = nestedTooDeep place := by
  have hlead : "Failed to parse stylesheet JSON: recursion limit exceeded at line " =
      "Failed to parse stylesheet JSON: " ++ ("recursion limit exceeded" ++ " at line ") := rfl
  unfold Diagnostic.ofReading nestedTooDeep Json.Complaint.message Text.Place.text
  rw [hlead]
  simp only [String.append_assoc]
  rfl

theorem parse_text {sheet : Sheet} (h : sheet.toJson.depth ≤ 127) :
    parse sheet.text = .ok sheet := by
  have hread := reader_text sheet 125
  rw [if_pos h] at hread
  exact Json.toOption_eq_some (parse_toOption hread)

theorem parse_text_deep {sheet : Sheet} (h : 127 < sheet.toJson.depth) :
    ∃ place, parse sheet.text = .error (nestedTooDeep place) := by
  -- With as many brackets as it takes the text is read, so with fewer it fails for want of them.
  obtain ⟨extra, hextra⟩ := Nat.exists_eq_add_of_le (Nat.le_of_lt h)
  have hdeep := reader_text sheet (125 + extra)
  rw [if_pos (by omega)] at hdeep
  have hlimited := reader_text sheet 125
  rw [if_neg (by omega)] at hlimited
  have hupTo := upTo_reader (show 127 ≤ 125 + extra + 2 by omega) sheet.text.toList
  rcases hupTo with heq | ⟨unread, hfault⟩
  · exact absurd (heq.trans hdeep) (hlimited sheet [])
  · refine ⟨.before unread sheet.text.toList, ?_⟩
    unfold parse read Json.readDocument
    rw [show reader Json.nestingLimit = reader 127 from rfl, hfault]
    exact congrArg Except.error (ofReading_nestedTooDeep _)

/-! ## Nodes only -/

/-- A text whose only member is a list of nodes. -/
def textOfNodes (items : List Json) : String := (Json.object [("nodes", .list items)]).text

theorem parse_textOfNodes {items : List Json} {nodes : List Node}
    (hcounted : Json.CountedItems items) (hdepth : Json.depthOfItems items ≤ 125)
    (h : items.mapM Node.ofOutermost? = some nodes) :
    parse (textOfNodes items) = .ok ⟨"", nodes⟩ := by
  obtain ⟨name, hname, hname?⟩ := Json.exists_letters "nodes"
  obtain ⟨inner, hinner, -, hitems, hinnerDepth⟩ := Json.exists_items items hcounted
  have hsheet := reader_nodes 125 hname? .none inner
  have htext : (textOfNodes items).toList = (Spelling.object .none
      [⟨.none, name, .none, .none, .list .none inner, .none⟩]).text := by
    simp only [textOfNodes, Json.text, String.toList_ofList, Json.write, Json.writeMembers,
      Spelling.text, Spelling.textOfMembers, Json.Blanks.none, Spelling.comma,
      ↓reduceIte, List.nil_append, List.cons_append, List.append_assoc, hname, ← hinner]
  rw [← htext, Spelling.itemsWithin?, hinnerDepth, if_pos hdepth, hitems, Option.bind_some,
    h] at hsheet
  exact Json.toOption_eq_some (parse_toOption hsheet)

end Sheet

end StyleScope
