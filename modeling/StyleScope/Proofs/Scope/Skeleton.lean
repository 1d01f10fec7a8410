import StyleScope.Proofs.Scope.Enclosing

/-!
# What the findings of a sheet depend on

Of a sheet only its branches and what must not stand inside them matter, with their places and their
order. Edits of anything else leave the diagnostics as they are, wherever in the tree they are made.
-/

namespace StyleScope

/-! ## Edits -/

/-- Nodes, or branches of one block, that stand next to each other. -/
inductive Siblings where
  | nodes (nodes : List Node)
  | branches (branches : List Branch)

/-- Siblings before and after one edit among them or below them. -/
inductive Siblings.Edit : Siblings → Siblings → Prop
  /-- A ruleset gives way to its children. -/
  | ruleset_spliced (selectors : List String) (children : List Node) (location : Option Location) :
    Edit (.nodes [.ruleset selectors children location]) (.nodes children)
  /-- An at-rule gives way to what is in its braces, to nothing if it has none. -/
  | atRule_spliced {name : String} (params : List Value) (block : Option (List Node))
      (location : Location) (h : name ≠ "external") :
    Edit (.nodes [.atRule name params block location]) (.nodes (block.getD []))
  | ruleset_changed (selectors selectors' : List String) (children : List Node)
      (location location' : Option Location) :
    Edit (.nodes [.ruleset selectors children location])
      (.nodes [.ruleset selectors' children location'])
  | atRule_changed {name name' : String} (params params' : List Value)
      (block : Option (List Node)) (location : Location)
      (h : name = "external" ↔ name' = "external") :
    Edit (.nodes [.atRule name params block location]) (.nodes [.atRule name' params' block location])
  | definition_changed (name name' : String) (values values' : List Value) (location : Location) :
    Edit (.nodes [.definition name values location]) (.nodes [.definition name' values' location])
  | declaration_changed (property : String) (values values' : List Value)
      (location : Option Location) :
    Edit (.nodes [.declaration property values location])
      (.nodes [.declaration property values' location])
  | declaration_deleted (property : String) (values : List Value) (location : Option Location) :
    Edit (.nodes [.declaration property values location]) (.nodes [])
  | block_moved (branches : List Branch) (location location' : Option Location) :
    Edit (.nodes [.conditionalBlock branches location])
      (.nodes [.conditionalBlock branches location'])
  | block_deleted (location : Option Location) :
    Edit (.nodes [.conditionalBlock [] location]) (.nodes [])
  | block_split (first rest : List Branch) (location location' location'' : Option Location) :
    Edit (.nodes [.conditionalBlock (first ++ rest) location])
      (.nodes [.conditionalBlock first location', .conditionalBlock rest location''])
  | blocks_merged (first rest : List Branch) (location location' location'' : Option Location) :
    Edit (.nodes [.conditionalBlock first location', .conditionalBlock rest location''])
      (.nodes [.conditionalBlock (first ++ rest) location])
  | branch_changed (kind kind' : Branch.Kind) (condition condition' : Option String)
      (children : List Node) (location : Location) :
    Edit (.branches [⟨kind, condition, children, location⟩])
      (.branches [⟨kind', condition', children, location⟩])
  /-- A branch with nothing below it that must not stand inside a branch. -/
  | branch_deleted (branch : Branch)
      (h : ∀ occurrence ∈ branch.occurrences [], occurrence.finding? = none) :
    Edit (.branches [branch]) (.branches [])
  | among_nodes {nodes nodes' : List Node} (before after : List Node)
      (h : Edit (.nodes nodes) (.nodes nodes')) :
    Edit (.nodes (before ++ (nodes ++ after))) (.nodes (before ++ (nodes' ++ after)))
  | among_branches {branches branches' : List Branch} (before after : List Branch)
      (h : Edit (.branches branches) (.branches branches')) :
    Edit (.branches (before ++ (branches ++ after))) (.branches (before ++ (branches' ++ after)))
  | in_ruleset {children children' : List Node} (selectors : List String)
      (location : Option Location) (h : Edit (.nodes children) (.nodes children')) :
    Edit (.nodes [.ruleset selectors children location])
      (.nodes [.ruleset selectors children' location])
  | in_atRule {nodes nodes' : List Node} (name : String) (params : List Value)
      (location : Location) (h : Edit (.nodes nodes) (.nodes nodes')) :
    Edit (.nodes [.atRule name params (some nodes) location])
      (.nodes [.atRule name params (some nodes') location])
  | in_block {branches branches' : List Branch} (location : Option Location)
      (h : Edit (.branches branches) (.branches branches')) :
    Edit (.nodes [.conditionalBlock branches location])
      (.nodes [.conditionalBlock branches' location])
  | in_branch {children children' : List Node} (kind : Branch.Kind) (condition : Option String)
      (location : Location) (h : Edit (.nodes children) (.nodes children')) :
    Edit (.branches [⟨kind, condition, children, location⟩])
      (.branches [⟨kind, condition, children', location⟩])

/-- A sheet before and after one edit. -/
inductive Sheet.Edit : Sheet → Sheet → Prop
  | renamed (name name' : String) (nodes : List Node) : Edit ⟨name, nodes⟩ ⟨name', nodes⟩
  | edited {nodes nodes' : List Node} (name : String)
      (h : Siblings.Edit (.nodes nodes) (.nodes nodes')) : Edit ⟨name, nodes⟩ ⟨name, nodes'⟩

/-! ## What is told of siblings -/

namespace Occurrence

theorem diagnostic?_eq_of_finding (mode : Mode) {occurrence other : Occurrence}
    (hfinding : occurrence.finding? = other.finding?)
    (hlocation : occurrence.node.location = other.node.location)
    (haround : nearestBranch occurrence.around = nearestBranch other.around) :
    occurrence.diagnostic? mode = other.diagnostic? mode := by
  unfold diagnostic?
  rw [hfinding, hlocation, haround]

end Occurrence

/-- The diagnostics for parts that stand next to each other and for all that is in them, given their
ancestors. -/
def toldOf (mode : Mode) (around : List Item) (parts : List Part) : List Diagnostic :=
  parts.flatMap fun part => diagnosticsOf mode (part.occurrences around)

section

variable {mode : Mode} {around around' : List Item}

@[simp] theorem toldOf_nil : toldOf mode around [] = [] := rfl

@[simp] theorem toldOf_append (first rest : List Part) :
    toldOf mode around (first ++ rest) = toldOf mode around first ++ toldOf mode around rest :=
  List.flatMap_append

theorem toldOf_pair (first second : Part) :
    toldOf mode around [first, second] = toldOf mode around [first] ++ toldOf mode around [second] :=
  toldOf_append [first] [second]

@[simp] theorem toldOf_values (values : List Value) :
    toldOf mode around (values.map .value) = [] := by
  unfold toldOf
  rw [List.flatMap_eq_nil_iff]
  intro part hmem
  obtain ⟨value, -, rfl⟩ := List.mem_map.mp hmem
  rfl

theorem toldOf_congr (h : nearestBranch around = nearestBranch around') (parts : List Part) :
    toldOf mode around parts = toldOf mode around' parts := by
  apply List.flatMap_congr
  intro part _
  have hinside : ∀ outer, part.occurrences outer = (part.occurrences []).map (·.inside outer) :=
    fun outer => occurrences_inside part [] outer
  unfold diagnosticsOf
  rw [hinside around, hinside around', List.filterMap_map, List.filterMap_map]
  apply List.filterMap_congr
  intro occurrence _
  apply Occurrence.diagnostic?_congr
  · rfl
  · rw [Occurrence.nearestBranch_inside, Occurrence.nearestBranch_inside, h]

theorem toldOf_item (item : Item) :
    toldOf mode around [.item item] =
      diagnosticsOf mode (item.occurrence? around).toList ++
        toldOf mode (item :: around) item.parts := by
  unfold toldOf
  rw [List.flatMap_singleton, occurrences_item, diagnosticsOf_append]
  congr 1
  exact List.filterMap_flatMap

/-- A node is told of as if all that is directly inside stood in its place. -/
theorem toldOf_node (node : Node) :
    toldOf mode around [.ofNode node] =
      ((⟨node, around⟩ : Occurrence).diagnostic? mode).toList ++
        toldOf mode around (Item.node node).parts := by
  have hnearest : nearestBranch (.node node :: around) = nearestBranch around := rfl
  have hnode : diagnosticsOf mode ((Item.node node).occurrence? around).toList =
      ((⟨node, around⟩ : Occurrence).diagnostic? mode).toList := by
    change diagnosticsOf mode [_] = _
    rw [diagnosticsOf_cons, diagnosticsOf_nil, List.append_nil]
  rw [Part.ofNode, toldOf_item, hnode, toldOf_congr hnearest]

theorem toldOf_harmless {node : Node} (h : (⟨node, around⟩ : Occurrence).finding? = none) :
    toldOf mode around [.ofNode node] = toldOf mode around (Item.node node).parts := by
  rw [toldOf_node, Validator.diagnostic_none mode (.inl h)]
  rfl

@[simp] theorem toldOf_ruleset (selectors : List String) (children : List Node)
    (location : Option Location) :
    toldOf mode around [.ofNode (.ruleset selectors children location)] =
      toldOf mode around (children.map .ofNode) :=
  toldOf_harmless rfl

@[simp] theorem toldOf_block (branches : List Branch) (location : Option Location) :
    toldOf mode around [.ofNode (.conditionalBlock branches location)] =
      toldOf mode around (branches.map .ofBranch) :=
  toldOf_harmless rfl

@[simp] theorem toldOf_declaration (property : String) (values : List Value)
    (location : Option Location) :
    toldOf mode around [.ofNode (.declaration property values location)] = [] :=
  (toldOf_harmless rfl).trans (toldOf_values values)

theorem toldOf_definition (name name' : String) (values values' : List Value)
    (location : Location) :
    toldOf mode around [.ofNode (.definition name values location)] =
      toldOf mode around [.ofNode (.definition name' values' location)] := by
  have hsame : (⟨.definition name values location, around⟩ : Occurrence).diagnostic? mode =
      (⟨.definition name' values' location, around⟩ : Occurrence).diagnostic? mode :=
    Occurrence.diagnostic?_eq_of_finding mode rfl rfl rfl
  simp only [toldOf_node, hsame, Item.parts, toldOf_values]

theorem toldOf_atRule {name name' : String} (params params' : List Value)
    {block block' : Option (List Node)} (location : Location)
    (hname : name = "external" ↔ name' = "external")
    (hblock : toldOf mode around ((block.getD []).map .ofNode) =
      toldOf mode around ((block'.getD []).map .ofNode)) :
    toldOf mode around [.ofNode (.atRule name params block location)] =
      toldOf mode around [.ofNode (.atRule name' params' block' location)] := by
  have hfinding : (⟨.atRule name params block location, around⟩ : Occurrence).finding? =
      (⟨.atRule name' params' block' location, around⟩ : Occurrence).finding? := by
    simp only [Occurrence.finding?, hname]
  have hsame : (⟨.atRule name params block location, around⟩ : Occurrence).diagnostic? mode =
      (⟨.atRule name' params' block' location, around⟩ : Occurrence).diagnostic? mode :=
    Occurrence.diagnostic?_eq_of_finding mode hfinding rfl rfl
  simp only [toldOf_node, hsame, Item.parts, toldOf_append, toldOf_values, hblock]

theorem toldOf_branch (kind : Branch.Kind) (condition : Option String) (children : List Node)
    (location : Location) :
    toldOf mode around [.ofBranch ⟨kind, condition, children, location⟩] =
      toldOf mode (asAncestors [location]) (children.map .ofNode) := by
  rw [Part.ofBranch, toldOf_item]
  have hnearest : nearestBranch (.branch ⟨kind, condition, children, location⟩ :: around) =
      nearestBranch (asAncestors [location]) := rfl
  exact toldOf_congr hnearest _

theorem toldOf_eq_nil {branch : Branch}
    (h : ∀ occurrence ∈ branch.occurrences [], occurrence.finding? = none) :
    toldOf mode around [.ofBranch branch] = [] := by
  unfold toldOf diagnosticsOf
  rw [List.flatMap_singleton, List.filterMap_eq_nil_iff]
  intro occurrence hmem
  have hinside : Part.occurrences ([] ++ around) (.ofBranch branch) = _ :=
    occurrences_inside (.ofBranch branch) [] around
  rw [List.nil_append] at hinside
  rw [hinside] at hmem
  obtain ⟨inner, hinner, rfl⟩ := List.mem_map.mp hmem
  exact Validator.diagnostic_none mode (.inl (h inner hinner))

end

/-! ## What edits keep -/

def Siblings.parts : Siblings → List Part
  | .nodes siblings => siblings.map .ofNode
  | .branches siblings => siblings.map .ofBranch

/-- An edit changes nothing of what is told, wherever the siblings stand. -/
theorem Siblings.Edit.told_eq {siblings siblings' : Siblings} (h : Edit siblings siblings')
    (mode : Mode) (around : List Item) :
    toldOf mode around siblings.parts = toldOf mode around siblings'.parts := by
  induction h generalizing around with
  | ruleset_spliced selectors children location => exact toldOf_ruleset ..
  | atRule_spliced params block location hname =>
    have hharmless : toldOf mode around [.ofNode (.atRule _ params block location)] = _ :=
      toldOf_harmless (if_neg hname)
    simpa [Item.parts, parts] using hharmless
  | ruleset_changed selectors selectors' children location location' => simp [parts]
  | atRule_changed params params' block location hname =>
    exact toldOf_atRule params params' location hname rfl
  | definition_changed name name' values values' location => exact toldOf_definition ..
  | declaration_changed property values values' location => simp [parts]
  | declaration_deleted property values location => simp [parts]
  | block_moved branches location location' => simp [parts]
  | block_deleted location => simp [parts]
  | block_split first rest location location' location'' =>
    simp [parts, toldOf_pair]
  | blocks_merged first rest location location' location'' =>
    simp [parts, toldOf_pair]
  | branch_changed kind kind' condition condition' children location => simp [parts, toldOf_branch]
  | branch_deleted branch hbranch => exact toldOf_eq_nil hbranch
  | among_nodes before after h ih =>
    simp only [parts, List.map_append, toldOf_append] at ih ⊢
    rw [ih]
  | among_branches before after h ih =>
    simp only [parts, List.map_append, toldOf_append] at ih ⊢
    rw [ih]
  | in_ruleset selectors location h ih => simpa [parts] using ih around
  | in_atRule name params location h ih =>
    exact toldOf_atRule params params location Iff.rfl (ih around)
  | in_block location h ih => simpa [parts] using ih around
  | in_branch kind condition location h ih => simpa [parts, toldOf_branch] using ih _

theorem Sheet.occurrences_told (sheet : Sheet) (mode : Mode) :
    diagnosticsOf mode sheet.occurrences = toldOf mode [] sheet.parts := by
  rw [occurrences_eq]
  exact List.filterMap_flatMap

theorem Sheet.Edit.diagnosticsOf_eq {sheet sheet' : Sheet} (h : Edit sheet sheet') (mode : Mode) :
    diagnosticsOf mode sheet.occurrences = diagnosticsOf mode sheet'.occurrences := by
  rw [occurrences_told, occurrences_told]
  cases h with
  | renamed name name' nodes => rfl
  | edited name hnodes => exact hnodes.told_eq mode []

/-- Nothing but branches and what must not stand inside them matters: however many edits are made, and
wherever, the diagnostics for a sheet stay the same. -/
theorem Sheet.validate_of_edits {sheet sheet' : Sheet} (h : Relation.ReflTransGen Edit sheet sheet')
    (mode : Mode) :
    ∃ diagnostics, sheet.validate mode = .ok diagnostics ∧ sheet'.validate mode = .ok diagnostics := by
  have htold : diagnosticsOf mode sheet.occurrences = diagnosticsOf mode sheet'.occurrences := by
    induction h with
    | refl => rfl
    | tail _ hedit ih => exact ih.trans (hedit.diagnosticsOf_eq mode)
  obtain ⟨diagnostics, hsheet, hlist⟩ := exists_validate sheet mode
  obtain ⟨diagnostics', hsheet', hlist'⟩ := exists_validate sheet' mode
  have hsame : diagnostics = diagnostics' := by
    rw [← htold, ← hlist] at hlist'
    obtain ⟨items⟩ := diagnostics
    obtain ⟨items'⟩ := diagnostics'
    exact congrArg Diagnostics.mk (Array.toList_inj.mp hlist'.symm)
  exact ⟨diagnostics, hsheet, hsame ▸ hsheet'⟩

/-- A constant that is told of inside a branch. -/
def sizeConstant (name : String) (values : List Value) : Node :=
  .definition name values ⟨⟨3, 3, 30⟩, ⟨3, 19, 46⟩⟩

def rightToLeft (children : List Node) : Branch :=
  ⟨.opening, some "RTL", children, ⟨⟨1, 1, 0⟩, ⟨5, 2, 60⟩⟩⟩

def elsewhere : Branch :=
  ⟨.fallback, none, [.declaration "left" [] none], ⟨⟨5, 3, 61⟩, ⟨7, 2, 80⟩⟩⟩

def wordySheet : Sheet :=
  ⟨"wordy", [.conditionalBlock
    [rightToLeft [.ruleset ["a", "b"]
      [sizeConstant "SIZE" [⟨"1px", none⟩], .declaration "top" [] none] none], elsewhere] none]⟩

def terseSheet : Sheet := ⟨"terse", [.conditionalBlock [rightToLeft [sizeConstant "WIDTH" []]] none]⟩

theorem wordy_edited : Relation.ReflTransGen Sheet.Edit wordySheet terseSheet := by
  have hinside : ∀ {children children' : List Node},
      Siblings.Edit (.nodes children) (.nodes children') →
        Sheet.Edit ⟨"wordy", [.conditionalBlock [rightToLeft children] none]⟩
          ⟨"wordy", [.conditionalBlock [rightToLeft children'] none]⟩ :=
    fun h => .edited _ (.in_block none (.in_branch _ _ _ h))
  have hotherwise : ∀ occurrence ∈ elsewhere.occurrences [], occurrence.finding? = none :=
    List.forall_mem_singleton.mpr rfl
  refine .head (.edited _ (.in_block _ (.among_branches [_] [] (.branch_deleted _ hotherwise)))) ?_
  refine .head (hinside (.ruleset_spliced ..)) ?_
  refine .head (hinside (.among_nodes [_] [] (.declaration_deleted ..))) ?_
  refine .head (hinside (.definition_changed _ "WIDTH" _ [] _)) ?_
  exact .single (.renamed ..)

theorem wordy_told_as_terse :
    Relation.ReflTransGen Sheet.Edit wordySheet terseSheet ∧
      ∃ diagnostics, wordySheet.validate .strict = .ok diagnostics ∧
        terseSheet.validate .strict = .ok diagnostics :=
  ⟨wordy_edited, Sheet.validate_of_edits wordy_edited .strict⟩

end StyleScope
