import StyleScope.Proofs.Sheet.Written
import StyleScope.Sheet.Equality

/-!
# A node at the top and inside a ruleset

A JSON value gives the same node in both places. Inside a ruleset it may give its kind by index, and
at the top it may not.
-/

namespace StyleScope

open Json (Outcome Spelling Letter)

/-! ## Names and indices -/

namespace Node

/-- Whether a JSON value gives the kind of a node by index. -/
def indexesKind (json : Json) : Bool :=
  match tag? json with
  | some (.number (.integer _)) => true
  | _ => false

theorem exists_tag {json : Json} {node : Node} (h : ofJson json = .ok node) :
    ∃ tag kind, tag? json = some tag ∧ Kind.ofJson tag = .ok kind := by
  rw [ofJson_eq] at h
  cases json with
  | object members =>
    simp only [ofJsonWith, kindOfMembers] at h
    unfold tag?
    simp only
    generalize members.filter (·.1 = tagName) = tags at h ⊢
    rcases tags with _ | ⟨⟨name, tag⟩, _ | ⟨second, tags⟩⟩
    · cases h
    · rcases hkind : Kind.ofJson tag with what | kind
      · simp only [hkind] at h
        cases h
      · exact ⟨tag, kind, rfl, hkind⟩
    · -- A kind that is given twice is a complaint, whatever it is.
      rcases hkind : Kind.ofJson tag with what | kind <;> simp only [hkind] at h <;> cases h
  | list items =>
    rcases items with _ | ⟨tag, items⟩
    · cases h
    · rcases hkind : Kind.ofJson tag with what | kind
      · rw [ofJsonWith, hkind] at h
        cases h
      · exact ⟨tag, kind, rfl, hkind⟩
  | _ => cases h

theorem ofOutermost?_of_not_indexesKind {json : Json} (h : indexesKind json = false) :
    ofOutermost? json = (ofJson json).toOption := by
  unfold ofOutermost?
  split
  · rfl
  · rename_i hname
    rcases hjson : ofJson json with what | node
    · rfl
    · obtain ⟨tag, kind, htag, hkind⟩ := exists_tag hjson
      simp only [namesKind, htag, Option.any_some] at hname
      simp only [indexesKind, htag] at h
      cases tag with
      | string s => exact absurd rfl hname
      | number n =>
        cases n with
        | integer k => cases h
        | float x => cases hkind
      | _ => cases hkind

theorem ofOutermost?_of_indexesKind {json : Json} (h : indexesKind json = true) :
    ofOutermost? json = none := by
  unfold ofOutermost?
  rw [if_neg]
  unfold indexesKind at h
  split at h
  · rename_i heq
    rw [namesKind, heq]
    simp [Kind.isName]
  · cases h

end Node

namespace Sheet

/-! ## One node -/

def sheetOpening : List Char := "\x7b\"nodes\":[".toList

def rulesetOpening : List Char :=
  "\x7b\"type\":\"ruleset\",\"selectors\":[],\"children\":[".toList

def closing : List Char := "]\x7d".toList

/-- The text of a sheet with the text of one node. -/
def textAround (node : List Char) : List Char := sheetOpening ++ (node ++ closing)

/-- The text of a ruleset with the text of one child. -/
def rulesetTextAround (node : List Char) : List Char := rulesetOpening ++ (node ++ closing)

theorem sheetOpening_eq : sheetOpening = '{' :: (Json.writeString "nodes" ++ [':', '[']) := by
  rfl

theorem rulesetOpening_eq :
    rulesetOpening = '{' :: (Json.writeString "type" ++ ':' :: (Json.writeString "ruleset" ++
      ',' :: (Json.writeString "selectors" ++ ':' :: '[' :: ']' :: ',' ::
        (Json.writeString "children" ++ [':', '['])))) := by
  rfl

theorem closing_eq : closing = [']', '}'] := by rfl

theorem parse_textAround (n : Spelling) :
    (parse (String.ofList (textAround n.text))).toOption =
      ((n.within? 125).bind Node.ofOutermost?).map fun node => ⟨"", [node]⟩ := by
  obtain ⟨name, hname, hname?⟩ := Json.exists_letters "nodes"
  have htext : textAround n.text = (Spelling.object .none [⟨.none, name, .none, .none,
      .list .none [⟨.none, n, .none⟩], .none⟩]).text := by
    simp only [textAround, sheetOpening_eq, closing_eq, Spelling.text, Spelling.textOfMembers,
      Spelling.textOfItems, Json.Blanks.none, Spelling.comma, ↓reduceIte, List.nil_append,
      List.cons_append, List.append_assoc, hname]
  have hsheet := reader_nodes 125 hname? .none [⟨.none, n, .none⟩]
  rw [Spelling.itemsWithin?_cons, Spelling.itemsWithin?_nil, ← htext] at hsheet
  apply parse_toOption
  rw [String.toList_ofList]
  rcases hvalue : n.within? 125 with _ | json
  · rw [hvalue] at hsheet
    exact hsheet
  · rw [hvalue] at hsheet
    simp only [Option.bind_some, Option.map_some, List.mapM_cons, List.mapM_nil] at hsheet ⊢
    rcases hnode : Node.ofOutermost? json with _ | node
    · rw [hnode] at hsheet
      exact hsheet
    · rw [hnode] at hsheet
      exact hsheet

theorem exists_ruleset (n : Spelling) :
    ∃ r : Spelling, r.text = rulesetTextAround n.text ∧ r.value? = n.value?.map rulesetAround ∧
      r.depth = n.depth + 2 := by
  obtain ⟨type, htype, htype?⟩ := Json.exists_letters "type"
  obtain ⟨ruleset, hruleset, hruleset?⟩ := Json.exists_letters "ruleset"
  obtain ⟨selectors, hselectors, hselectors?⟩ := Json.exists_letters "selectors"
  obtain ⟨children, hchildren, hchildren?⟩ := Json.exists_letters "children"
  refine ⟨.object .none [⟨.none, type, .none, .none, .string ruleset, .none⟩,
    ⟨.none, selectors, .none, .none, .list .none [], .none⟩,
    ⟨.none, children, .none, .none, .list .none [⟨.none, n, .none⟩], .none⟩], ?_, ?_, ?_⟩
  · simp only [rulesetTextAround, rulesetOpening_eq, closing_eq, Spelling.text,
      Spelling.textOfMembers, Spelling.textOfItems, Json.Blanks.none, Spelling.comma, ↓reduceIte, Bool.false_eq_true,
      List.nil_append, List.cons_append, List.append_assoc, htype, hruleset, hselectors, hchildren]
  · simp only [Spelling.value?, Spelling.members?, Spelling.items?, htype?, hruleset?, hselectors?,
      hchildren?]
    cases n.value? <;> rfl
  · simp only [Spelling.depth, Spelling.depthOfMembers, Spelling.depthOfItems]
    omega

/-! ## Two places -/

/-- The text of a sheet with one node. -/
def atTop (n : Spelling) : String := String.ofList (textAround n.text)

/-- The text of a sheet with one ruleset, of which the node is the only child. -/
def inRuleset (n : Spelling) : String := String.ofList (textAround (rulesetTextAround n.text))

/-- What is spelled gives the kind of a node by index. -/
def IndexesKind (n : Spelling) : Prop :=
  ∃ json, n.value? = some json ∧ Node.indexesKind json = true

theorem parse_atTop {n : Spelling} (hdepth : n.depth ≤ 125) :
    (parse (atTop n)).toOption =
      (n.value?.bind Node.ofOutermost?).map fun node => ⟨"", [node]⟩ := by
  rw [atTop, parse_textAround, Spelling.within?, if_pos hdepth]

theorem ofOutermost?_rulesetAround (json : Json) :
    Node.ofOutermost? (rulesetAround json) =
      (Node.ofJson json).toOption.map fun node => .ruleset [] [node] none := by
  unfold Node.ofOutermost?
  rw [if_pos (namesKind_rulesetAround json)]
  rcases hjson : Node.ofJson json with what | node
  · rcases hruleset : Node.ofJson (rulesetAround json) with what | node
    · rfl
    · obtain ⟨child, hchild⟩ := exists_of_ofJson_rulesetAround hruleset
      rw [hjson] at hchild
      cases hchild
  · rw [ofJson_rulesetAround hjson]
    rfl

theorem parse_inRuleset {n : Spelling} (hdepth : n.depth ≤ 123) :
    (parse (inRuleset n)).toOption =
      (n.value?.bind fun json => (Node.ofJson json).toOption).map fun node =>
        ⟨"", [.ruleset [] [node] none]⟩ := by
  obtain ⟨r, htext, hvalue, hr⟩ := exists_ruleset n
  rw [inRuleset, ← htext, parse_textAround, Spelling.within?, if_pos (by omega), hvalue,
    Option.bind_map]
  rcases n.value? with _ | json
  · rfl
  · simp only [Option.bind_some, Function.comp_apply, ofOutermost?_rulesetAround, Option.map_map]
    rfl

theorem isOk_iff {ε α : Type} (x : Except ε α) : (∃ a, x = .ok a) ↔ x.toOption.isSome := by
  cases x <;> simp [Except.toOption]

/-- Both places take a node alike, except that no node at the top gives its kind by index. A node
that both take is the same. -/
theorem parse_alike (n : Spelling) (hdepth : n.depth + 4 ≤ 127) :
    (¬ IndexesKind n →
        ((∃ sheet, parse (atTop n) = .ok sheet) ↔ ∃ sheet, parse (inRuleset n) = .ok sheet)) ∧
      (IndexesKind n → ∀ sheet, parse (atTop n) ≠ .ok sheet) ∧
      ∀ sheet sheet', parse (atTop n) = .ok sheet → parse (inRuleset n) = .ok sheet' →
        ∃ node, sheet = ⟨"", [node]⟩ ∧ sheet' = ⟨"", [.ruleset [] [node] none]⟩ := by
  have htop := parse_atTop (n := n) (by omega)
  have hinside := parse_inRuleset (n := n) (by omega)
  refine ⟨?_, ?_, ?_⟩
  · intro hindex
    rw [isOk_iff, isOk_iff, htop, hinside]
    rcases hvalue : n.value? with _ | json
    · simp
    · have hname : Node.indexesKind json = false := by
        simpa using fun h => hindex ⟨json, hvalue, h⟩
      simp [Node.ofOutermost?_of_not_indexesKind hname]
  · intro hindex sheet hsheet
    obtain ⟨json, hvalue, hjson⟩ := hindex
    rw [hsheet, hvalue, Option.bind_some, Node.ofOutermost?_of_indexesKind hjson] at htop
    cases htop
  · -- Both sheets come from the same value, which is read as one node.
    intro sheet sheet' hsheet hsheet'
    rw [hsheet] at htop
    rw [hsheet'] at hinside
    obtain ⟨node, hnode, rfl⟩ := Option.map_eq_some_iff.mp htop.symm
    obtain ⟨child, hchild, rfl⟩ := Option.map_eq_some_iff.mp hinside.symm
    obtain ⟨json, hvalue, houtermost⟩ := Option.bind_eq_some_iff.mp hnode
    rw [hvalue, Option.bind_some] at hchild
    unfold Node.ofOutermost? at houtermost
    split at houtermost
    · rw [houtermost] at hchild
      cases hchild
      exact ⟨node, rfl, rfl⟩
    · cases houtermost

/-- Characters spelled as they are, without those that cannot be. -/
def plainly (chars : List Char) : List Letter :=
  chars.filterMap fun c => if h : c ≠ '"' ∧ c ≠ '\\' ∧ ¬ c < ' ' then some (.plain c h) else none

/-- A declaration that is a list, with a blank in it. -/
def listedDeclaration : Spelling :=
  .list .none
    [⟨.none, .string (plainly "declaration".toList), .none⟩,
      ⟨⟨[' '], List.forall_mem_singleton.mpr rfl⟩, .string (plainly "p".toList), .none⟩]

theorem listed_declaration_alike :
    listedDeclaration.depth + 4 ≤ 127 ∧ ¬ IndexesKind listedDeclaration ∧
      ((∃ sheet, parse (atTop listedDeclaration) = .ok sheet) ↔
        ∃ sheet, parse (inRuleset listedDeclaration) = .ok sheet) := by
  have hdepth : listedDeclaration.depth + 4 ≤ 127 := by decide
  have hvalue : listedDeclaration.value? = some (.list [.string "declaration", .string "p"]) := by
    rfl
  have hname : ¬ IndexesKind listedDeclaration := by
    rintro ⟨json, hjson, hindex⟩
    rw [hvalue] at hjson
    cases hjson
    cases hindex
  exact ⟨hdepth, hname, (parse_alike listedDeclaration hdepth).1 hname⟩

/-- A declaration that gives its kind by index. -/
def indexedDeclaration : Spelling :=
  .object .none
    [⟨.none, plainly "type".toList, .none, .none, .number (.ofNat 4), .none⟩,
      ⟨.none, plainly "property".toList, .none, .none,
        .string (plainly "p".toList), .none⟩]

theorem indexed_declaration_only_inside :
    indexedDeclaration.depth + 4 ≤ 127 ∧ (∀ sheet, parse (atTop indexedDeclaration) ≠ .ok sheet) ∧
      parse (inRuleset indexedDeclaration) =
        .ok ⟨"", [.ruleset [] [.declaration "p" [] none] none]⟩ := by
  have htop : (parse (atTop indexedDeclaration)).toOption = none := by decide +kernel
  have hinside : (parse (inRuleset indexedDeclaration)).toOption =
      some ⟨"", [.ruleset [] [.declaration "p" [] none] none]⟩ := by decide +kernel
  refine ⟨by decide, ?_, Json.toOption_eq_some hinside⟩
  intro sheet hsheet
  rw [hsheet] at htop
  cases htop

end Sheet

end StyleScope
