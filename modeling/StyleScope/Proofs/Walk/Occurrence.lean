import StyleScope.Proofs.Walk.Parts

/-!
# The nodes of a tree with what is around them

An occurrence is a node where it stands, known by its ancestors alone: no walk and no state is
needed to say what they are. The nodes in an item are those in what is directly inside it, with one
more ancestor, and what stands around the item as well only comes after their other ancestors.
-/

namespace StyleScope

/-- A node where it stands in a tree; `around` are its ancestors, innermost first. -/
structure Occurrence where
  node : Node
  around : List Item

mutual

/-- A node and all nodes below it in document order, given the ancestors of that node. -/
def Node.occurrences (around : List Item) : Node → List Occurrence
  | .conditionalBlock branches location =>
    ⟨.conditionalBlock branches location, around⟩ ::
      branchesOccurrences (.node (.conditionalBlock branches location) :: around) branches
  | .definition name values location => [⟨.definition name values location, around⟩]
  | .atRule name params none location => [⟨.atRule name params none location, around⟩]
  | .atRule name params (some nodes) location =>
    ⟨.atRule name params (some nodes) location, around⟩ ::
      nodesOccurrences (.node (.atRule name params (some nodes) location) :: around) nodes
  | .ruleset selectors children location =>
    ⟨.ruleset selectors children location, around⟩ ::
      nodesOccurrences (.node (.ruleset selectors children location) :: around) children
  | .declaration property values location => [⟨.declaration property values location, around⟩]

/-- The nodes below a branch. -/
def Branch.occurrences (around : List Item) : Branch → List Occurrence
  | ⟨kind, condition, children, location⟩ =>
    nodesOccurrences (.branch ⟨kind, condition, children, location⟩ :: around) children

def nodesOccurrences (around : List Item) : List Node → List Occurrence
  | [] => []
  | node :: nodes => node.occurrences around ++ nodesOccurrences around nodes

def branchesOccurrences (around : List Item) : List Branch → List Occurrence
  | [] => []
  | branch :: branches => branch.occurrences around ++ branchesOccurrences around branches

end

/-- All nodes of a sheet in document order. -/
def Sheet.occurrences (sheet : Sheet) : List Occurrence := nodesOccurrences [] sheet.nodes

/-! ## Parts -/

/-- An item as an occurrence, if it is a node. -/
def Item.occurrence? (around : List Item) : Item → Option Occurrence
  | .node inner => some ⟨inner, around⟩
  | .branch _ => none

/-- The nodes in a part in document order, given the ancestors of the part. -/
def Part.occurrences (around : List Item) : Part → List Occurrence
  | .item (.node node) => node.occurrences around
  | .item (.branch branch) => branch.occurrences around
  | .value _ => []

theorem occurrences_values (around : List Item) (values : List Value) :
    (values.map Part.value).flatMap (Part.occurrences around) = [] := by
  induction values with
  | nil => rfl
  | cons value values ih => exact ih

theorem occurrences_nodes (around : List Item) (nodes : List Node) :
    (nodes.map Part.ofNode).flatMap (Part.occurrences around) = nodesOccurrences around nodes := by
  induction nodes with
  | nil => rfl
  | cons node nodes ih =>
    rw [List.map_cons, List.flatMap_cons, ih]
    rfl

theorem occurrences_branches (around : List Item) (branches : List Branch) :
    (branches.map Part.ofBranch).flatMap (Part.occurrences around) =
      branchesOccurrences around branches := by
  induction branches with
  | nil => rfl
  | cons branch branches ih =>
    rw [List.map_cons, List.flatMap_cons, ih]
    rfl

theorem occurrences_item (around : List Item) (item : Item) :
    (Part.item item).occurrences around = (item.occurrence? around).toList ++
      item.parts.flatMap (Part.occurrences (item :: around)) := by
  match item with
  | .branch ⟨kind, condition, children, location⟩ =>
    rw [Item.parts, occurrences_nodes]
    rfl
  | .node (.conditionalBlock branches location) =>
    rw [Item.parts, occurrences_branches]
    rfl
  | .node (.definition name values location) =>
    rw [Item.parts, occurrences_values]
    rfl
  | .node (.atRule name params none location) =>
    rw [Item.parts, List.flatMap_append, occurrences_values]
    rfl
  | .node (.atRule name params (some nodes) location) =>
    rw [Item.parts, List.flatMap_append, occurrences_values, Option.getD_some, occurrences_nodes]
    rfl
  | .node (.ruleset selectors children location) =>
    rw [Item.parts, occurrences_nodes]
    rfl
  | .node (.declaration property values location) =>
    rw [Item.parts, occurrences_values]
    rfl

theorem nodesOccurrences_append (around : List Item) (first rest : List Node) :
    nodesOccurrences around (first ++ rest) =
      nodesOccurrences around first ++ nodesOccurrences around rest := by
  simp only [← occurrences_nodes, List.map_append, List.flatMap_append]

theorem Sheet.occurrences_eq (sheet : Sheet) :
    sheet.occurrences = sheet.parts.flatMap (Part.occurrences []) :=
  (occurrences_nodes [] sheet.nodes).symm

/-! ## What is around -/

/-- An occurrence with more ancestors outside. -/
def Occurrence.inside (outer : List Item) (occurrence : Occurrence) : Occurrence :=
  ⟨occurrence.node, occurrence.around ++ outer⟩

theorem occurrences_inside (part : Part) (around outer : List Item) :
    part.occurrences (around ++ outer) = (part.occurrences around).map (·.inside outer) := by
  induction part using Part.induction generalizing around with
  | value v => rfl
  | item item ih =>
    rw [occurrences_item, occurrences_item, List.map_append, List.map_flatMap]
    have hitem : (item.occurrence? (around ++ outer)).toList =
        (item.occurrence? around).toList.map (·.inside outer) := by
      cases item <;> rfl
    rw [hitem]
    congr 1
    apply List.flatMap_congr
    intro part hmem
    exact ih part hmem (item :: around)

theorem nodesOccurrences_inside (outer : List Item) (nodes : List Node) :
    nodesOccurrences outer nodes = (nodesOccurrences [] nodes).map (·.inside outer) := by
  rw [← occurrences_nodes, ← occurrences_nodes, List.map_flatMap]
  apply List.flatMap_congr
  intro part _
  exact occurrences_inside part [] outer

end StyleScope
