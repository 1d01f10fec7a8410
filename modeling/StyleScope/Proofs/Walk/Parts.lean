import Mathlib
import StyleScope.Walk.Record

/-!
# What is directly inside

A walk treats all kinds of items alike: it visits what is directly inside an item in document order,
unless the visitor skips it. So facts about walks are proved by one induction on parts.
-/

namespace StyleScope

/-- What a walk comes to: something that it enters and leaves, or a value. -/
inductive Part where
  | item (item : Item)
  | value (value : Value)

namespace Part

def ofNode (node : Node) : Part := .item (.node node)

def ofBranch (branch : Branch) : Part := .item (.branch branch)

end Part

/-- What is directly inside an item, in document order. -/
def Item.parts : Item → List Part
  | .branch ⟨_, _, children, _⟩ => children.map .ofNode
  | .node (.conditionalBlock branches _) => branches.map .ofBranch
  | .node (.definition _ values _) => values.map .value
  | .node (.atRule _ params block _) => params.map .value ++ (block.getD []).map .ofNode
  | .node (.ruleset _ children _) => children.map .ofNode
  | .node (.declaration _ values _) => values.map .value

def Sheet.parts (sheet : Sheet) : List Part := sheet.nodes.map .ofNode

/-! ## Induction -/

theorem Item.sizeOf_lt_of_mem_parts {item : Item} {part : Part} (h : part ∈ item.parts) :
    sizeOf part < sizeOf (Part.item item) := by
  have hvalue : ∀ {values : List Value}, part ∈ values.map Part.value →
      sizeOf part < sizeOf values + 1 := by
    intro values hmem
    obtain ⟨value, hvalue, rfl⟩ := List.mem_map.mp hmem
    have := List.sizeOf_lt_of_mem hvalue
    simp only [Part.value.sizeOf_spec]
    omega
  have hnode : ∀ {nodes : List Node}, part ∈ nodes.map Part.ofNode →
      sizeOf part < sizeOf nodes + 2 := by
    intro nodes hmem
    obtain ⟨node, hnode, rfl⟩ := List.mem_map.mp hmem
    have := List.sizeOf_lt_of_mem hnode
    simp only [Part.ofNode, Part.item.sizeOf_spec, Item.node.sizeOf_spec]
    omega
  cases item with
  | branch branch =>
    obtain ⟨kind, condition, children, location⟩ := branch
    have := hnode h
    simp only [Part.item.sizeOf_spec, Item.branch.sizeOf_spec, Branch.mk.sizeOf_spec]
    omega
  | node node =>
    simp only [Part.item.sizeOf_spec, Item.node.sizeOf_spec]
    cases node with
    | conditionalBlock branches location =>
      obtain ⟨branch, hbranch, rfl⟩ := List.mem_map.mp h
      have := List.sizeOf_lt_of_mem hbranch
      simp only [Part.ofBranch, Part.item.sizeOf_spec, Item.branch.sizeOf_spec,
        Node.conditionalBlock.sizeOf_spec]
      omega
    | definition name values location =>
      have := hvalue h
      simp only [Node.definition.sizeOf_spec]
      omega
    | atRule name params block location =>
      simp only [Node.atRule.sizeOf_spec]
      rcases List.mem_append.mp h with h | h
      · have := hvalue h
        omega
      · cases block with
        | none => simp at h
        | some nodes =>
          have hmem : part ∈ nodes.map Part.ofNode := h
          have := hnode hmem
          simp only [Option.some.sizeOf_spec]
          omega
    | ruleset selectors children location =>
      have := hnode h
      simp only [Node.ruleset.sizeOf_spec]
      omega
    | declaration property values location =>
      have := hvalue h
      simp only [Node.declaration.sizeOf_spec]
      omega

/-- What holds of an item whenever it holds of all that is directly inside holds of every part. -/
theorem Part.induction {P : Part → Prop} (value : ∀ value, P (.value value))
    (item : ∀ item : Item, (∀ part ∈ item.parts, P part) → P (.item item)) (part : Part) :
    P part := by
  match part with
  | .value v => exact value v
  | .item i =>
    apply item i
    intro inner hmem
    exact Part.induction value item inner
termination_by sizeOf part
decreasing_by exact Item.sizeOf_lt_of_mem_parts hmem

/-! ## Walks -/

namespace Visitor

variable {m : Type → Type} [Monad m] (visitor : Visitor m)

def walkPart : Part → m Unit
  | .item (.node node) => visitor.walkNode node
  | .item (.branch branch) => visitor.walkBranch branch
  | .value value => visitor.value value

def walkParts (parts : List Part) : m Unit := parts.forM visitor.walkPart

theorem walkParts_nil : visitor.walkParts [] = pure () := rfl

theorem walkParts_cons (part : Part) (parts : List Part) :
    visitor.walkParts (part :: parts) =
      (do visitor.walkPart part; visitor.walkParts parts) := rfl

theorem walkParts_values (values : List Value) :
    visitor.walkParts (values.map .value) = visitor.walkValues values := by
  induction values with
  | nil => rfl
  | cons value values ih =>
    rw [List.map_cons, walkParts_cons, ih]
    rfl

theorem walkParts_nodes (nodes : List Node) :
    visitor.walkParts (nodes.map .ofNode) = visitor.walkNodes nodes := by
  induction nodes with
  | nil => simp only [List.map_nil, walkParts_nil, walkNodes]
  | cons node nodes ih =>
    rw [List.map_cons, walkParts_cons, ih, walkNodes]
    rfl

theorem walkParts_branches (branches : List Branch) :
    visitor.walkParts (branches.map .ofBranch) = visitor.walkBranches branches := by
  induction branches with
  | nil => simp only [List.map_nil, walkParts_nil, walkBranches]
  | cons branch branches ih =>
    rw [List.map_cons, walkParts_cons, ih, walkBranches]
    rfl

theorem walkSheet_eq (sheet : Sheet) : visitor.walkSheet sheet = visitor.walkParts sheet.parts :=
  (visitor.walkParts_nodes sheet.nodes).symm

theorem walkParts_append [LawfulMonad m] (first rest : List Part) :
    visitor.walkParts (first ++ rest) =
      (do visitor.walkParts first; visitor.walkParts rest) :=
  List.forM_append

/-- An item is visited with what is directly inside, whatever its kind. -/
theorem walkPart_item [LawfulMonad m] (item : Item) :
    visitor.walkPart (.item item) = visitor.visit item (visitor.walkParts item.parts) := by
  match item with
  | .branch ⟨kind, condition, children, location⟩ =>
    simp only [walkPart, walkBranch, Item.parts, walkParts_nodes]
  | .node (.conditionalBlock branches location) =>
    simp only [walkPart, walkNode, Item.parts, walkParts_branches]
  | .node (.definition name values location) =>
    simp only [walkPart, walkNode, Item.parts, walkParts_values]
  | .node (.atRule name params none location) =>
    simp only [walkPart, walkNode, Item.parts, Option.getD_none, List.map_nil, List.append_nil,
      walkParts_values]
  | .node (.atRule name params (some nodes) location) =>
    simp only [walkPart, walkNode, Item.parts, Option.getD_some, walkParts_append,
      walkParts_values, walkParts_nodes]
  | .node (.ruleset selectors children location) =>
    simp only [walkPart, walkNode, Item.parts, walkParts_nodes]
  | .node (.declaration property values location) =>
    simp only [walkPart, walkNode, Item.parts, walkParts_values]

end Visitor

end StyleScope
