import StyleScope.Proofs.Scope.Findings
import StyleScope.Proofs.Sheet.Growth
import StyleScope.Proofs.Walk.Occurrence
import StyleScope.Proofs.Walk.Visits

/-!
# How deep a walk goes

What is directly inside an item is written in a list of the object for the item. So each item around
takes two brackets of what is written, and a branch takes four with its block. The innermost branch
takes a fifth, as its place is nested deeper than an empty list.
-/

namespace StyleScope

/-! ## Brackets -/

theorem Json.depth_lt_of_mem_members {name : String} {json : Json} {members : List Json.Member}
    (h : (name, json) ∈ members) : json.depth < (Json.object members).depth := by
  rw [Json.depth]
  exact Nat.lt_succ_of_le (Json.depth_le_of_mem_members h)

theorem Json.depth_of_listed {name : String} {items : List Json} {members : List Json.Member}
    {item : Json} (hmember : (name, .list items) ∈ members) (hitem : item ∈ items) :
    item.depth + 2 ≤ (Json.object members).depth := by
  have hlist := Json.depth_lt_of_mem_members hmember
  have hle := Json.depth_le_of_mem_items hitem
  rw [Json.depth] at hlist
  omega

def Part.toJson : Part → Json
  | .item (.node node) => node.toJson
  | .item (.branch branch) => branch.toJson
  | .value v => v.toJson

theorem depth_of_node_listed {name : String} {nodes : List Node} {members : List Json.Member}
    {part : Part} (hmember : (name, .list (nodeItems nodes)) ∈ members)
    (h : part ∈ nodes.map Part.ofNode) : part.toJson.depth + 2 ≤ (Json.object members).depth := by
  obtain ⟨node, hnode, rfl⟩ := List.mem_map.mp h
  apply Json.depth_of_listed hmember
  rw [nodeItems_eq_map]
  exact List.mem_map_of_mem hnode

theorem depth_of_value_listed {name : String} {values : List Value} {members : List Json.Member}
    {part : Part} (hmember : (name, valuesToJson values) ∈ members)
    (h : part ∈ values.map Part.value) : part.toJson.depth + 2 ≤ (Json.object members).depth := by
  obtain ⟨value, hvalue, rfl⟩ := List.mem_map.mp h
  apply Json.depth_of_listed hmember
  exact List.mem_map_of_mem hvalue

theorem depth_of_mem_parts {item : Item} {part : Part} (h : part ∈ item.parts) :
    part.toJson.depth + 2 ≤ (Part.item item).toJson.depth := by
  cases item with
  | branch branch =>
    obtain ⟨kind, condition, children, location⟩ := branch
    exact depth_of_node_listed (.tail _ (.tail _ (.head _))) h
  | node node =>
    cases node with
    | conditionalBlock branches location =>
      obtain ⟨branch, hbranch, rfl⟩ := List.mem_map.mp h
      apply Json.depth_of_listed (.tail _ (.head _))
      rw [branchItems_eq_map]
      exact List.mem_map_of_mem hbranch
    | definition name values location =>
      exact depth_of_value_listed (.tail _ (.tail _ (.head _))) h
    | atRule name params block location =>
      rcases List.mem_append.mp h with hvalue | hnode
      · cases block <;> exact depth_of_value_listed (.tail _ (.tail _ (.head _))) hvalue
      · cases block with
        | none => simp at hnode
        | some nodes => exact depth_of_node_listed (.tail _ (.tail _ (.tail _ (.head _)))) hnode
    | ruleset selectors children location =>
      exact depth_of_node_listed (.tail _ (.tail _ (.head _))) h
    | declaration property values location =>
      exact depth_of_value_listed (.tail _ (.tail _ (.head _))) h

theorem depth_of_mem_sheet {sheet : Sheet} {part : Part} (h : part ∈ sheet.parts) :
    part.toJson.depth + 2 ≤ sheet.toJson.depth :=
  depth_of_node_listed (.tail _ (.head _)) h

theorem depth_list_pos (items : List Json) : 0 < (Json.list items).depth := by
  rw [Json.depth]
  exact Nat.succ_pos _

theorem two_le_depth_node (node : Node) : 2 ≤ node.toJson.depth := by
  have hlist : ∀ {name : String} {items : List Json} {members : List Json.Member},
      (name, .list items) ∈ members → 2 ≤ (Json.object members).depth := by
    intro name items members hmember
    exact Nat.lt_of_le_of_lt (depth_list_pos items) (Json.depth_lt_of_mem_members hmember)
  cases node with
  | conditionalBlock branches location => exact hlist (.tail _ (.head _))
  | definition name values location => exact hlist (.tail _ (.tail _ (.head _)))
  | atRule name params block location =>
    cases block <;> exact hlist (.tail _ (.tail _ (.head _)))
  | ruleset selectors children location => exact hlist (.tail _ (.head _))
  | declaration property values location => exact hlist (.tail _ (.tail _ (.head _)))

theorem three_le_depth_branch (branch : Branch) : 3 ≤ branch.toJson.depth := by
  obtain ⟨kind, condition, children, location⟩ := branch
  -- The place of a branch takes two brackets, and the branch is around it.
  rw [Branch.toJson, Nat.succ_le_iff, ← depth_location location]
  exact Json.depth_lt_of_mem_members (.tail _ (.tail _ (.tail _ (.head _))))

theorem depth_part_pos (part : Part) : 0 < part.toJson.depth := by
  cases part with
  | value v => exact Nat.lt_of_le_of_lt (Nat.zero_le _) (Json.depth_lt_of_mem_members (.head _))
  | item item =>
    cases item with
    | node node => exact Nat.lt_of_lt_of_le (by decide) (two_le_depth_node node)
    | branch branch => exact Nat.lt_of_lt_of_le (by decide) (three_le_depth_branch branch)

/-! ## Occurrences -/

def Item.isNode : Item → Bool
  | .node _ => true
  | .branch _ => false

/-- How deep a node is nested: a top-level one has the depth one, and any other one more than the
node that holds it. -/
def Occurrence.depth (occurrence : Occurrence) : Nat :=
  occurrence.around.countP Item.isNode + 1

theorem depth_of_mem_occurrences {part : Part} {around : List Item} {occurrence : Occurrence}
    (h : occurrence ∈ part.occurrences around) :
    2 * occurrence.around.length + occurrence.node.toJson.depth ≤
      2 * around.length + part.toJson.depth := by
  induction part using Part.induction generalizing around with
  | value v => cases h
  | item item ih =>
    rw [occurrences_item, List.mem_append, Option.mem_toList, List.mem_flatMap] at h
    rcases h with h | ⟨part, hpart, hinner⟩
    · cases item with
      | node node =>
        cases h
        exact Nat.le_refl _
      | branch branch => cases h
    · have hstep := depth_of_mem_parts hpart
      have hinside := ih part hpart hinner
      rw [List.length_cons] at hinside
      omega

theorem depth_of_mem_sheet_occurrences {sheet : Sheet} {occurrence : Occurrence}
    (h : occurrence ∈ sheet.occurrences) : 2 * occurrence.depth + 2 ≤ sheet.toJson.depth := by
  rw [Sheet.occurrences_eq] at h
  obtain ⟨part, hpart, hoccurrence⟩ := List.mem_flatMap.mp h
  have hsheet := depth_of_mem_sheet hpart
  have hinside := depth_of_mem_occurrences hoccurrence
  have hnode := two_le_depth_node occurrence.node
  have hcount : occurrence.around.countP Item.isNode ≤ occurrence.around.length :=
    List.countP_le_length
  rw [List.length_nil] at hinside
  unfold Occurrence.depth
  omega

/-! ## Visits -/

theorem exists_of_mem_visitsFrom {answer : Place → Item → Action} {first : Nat}
    {parts : List Part} {visit : Visit} (h : visit ∈ visitsFrom first answer parts) :
    ∃ part ∈ parts, ∃ answer', ∃ inner ∈ part.visits answer',
      visit.around = inner.around ∧ visit.call = inner.call := by
  obtain ⟨part, index, hpart, inner, hinner, rfl⟩ := mem_visitsFrom.mp h
  exact ⟨part, List.fst_mem_of_mem_zipIdx hpart, _, inner, hinner, rfl, rfl⟩

theorem exists_of_mem_visits {answer : Place → Item → Action} {item : Item} {visit : Visit}
    (h : visit ∈ (Part.item item).visits answer) :
    (visit.around = [] ∧ visit.call.part = .item item) ∨
      ∃ part ∈ item.parts, ∃ answer', ∃ inner ∈ part.visits answer',
        visit.around = item :: inner.around ∧ visit.call = inner.call := by
  rw [visits_item, List.mem_cons, List.mem_append, List.mem_singleton] at h
  rcases h with rfl | h | rfl
  · exact .inl ⟨rfl, rfl⟩
  · right
    split at h
    · obtain ⟨outer, houter, rfl⟩ := List.mem_map.mp h
      obtain ⟨part, hpart, answer', inner, hinner, haround, hcall⟩ := exists_of_mem_visitsFrom houter
      refine ⟨part, hpart, answer', inner, hinner, ?_, hcall⟩
      simp only [Visit.under, List.singleton_append, haround]
    · cases h
  · exact .inl ⟨rfl, rfl⟩

theorem depth_of_mem_visits {part : Part} {answer : Place → Item → Action} {visit : Visit}
    (h : visit ∈ part.visits answer) :
    2 * visit.around.length + visit.call.part.toJson.depth ≤ part.toJson.depth := by
  induction part using Part.induction generalizing answer visit with
  | value v =>
    rw [visits_value, List.mem_singleton] at h
    subst h
    exact Nat.le_of_eq (Nat.zero_add _)
  | item item ih =>
    rcases exists_of_mem_visits h with ⟨haround, hpart⟩ | ⟨part, hpart, answer', inner, hinner,
      haround, hcall⟩
    · rw [haround, hpart]
      exact Nat.le_of_eq (Nat.zero_add _)
    · have hstep := depth_of_mem_parts hpart
      have hinside := ih part hpart hinner
      rw [haround, hcall, List.length_cons]
      omega

theorem depth_of_mem_sheet_visits {sheet : Sheet} {answer : Place → Item → Action} {visit : Visit}
    (h : visit ∈ sheet.visits answer) : 2 * visit.around.length + 3 ≤ sheet.toJson.depth := by
  obtain ⟨part, hpart, answer', inner, hinner, haround, hcall⟩ := exists_of_mem_visitsFrom h
  have hsheet := depth_of_mem_sheet hpart
  have hinside := depth_of_mem_visits hinner
  have hpos := depth_part_pos inner.call.part
  rw [haround]
  omega

/-! ## Branches around visits -/

def Part.branchLocation? : Part → Option Location
  | .item inner => inner.branchLocation?
  | .value _ => none

/-- The places of the branches around a visit, outermost first, and of the branch it is about. -/
def Visit.branches (visit : Visit) : List Location :=
  visit.around.filterMap Item.branchLocation? ++ visit.call.part.branchLocation?.toList

theorem branches_cons {visit inner : Visit} {item : Item}
    (haround : visit.around = item :: inner.around) (hcall : visit.call = inner.call) :
    visit.branches = item.branchLocation?.toList ++ inner.branches := by
  unfold Visit.branches
  rw [haround, hcall, List.filterMap_cons]
  cases item.branchLocation? <;> rfl

theorem branches_of_mem_parts {item : Item} {part : Part} (h : part ∈ item.parts) :
    item.branchLocation?.toList.length + part.branchLocation?.toList.length ≤ 1 := by
  cases item with
  | node node =>
    rw [Item.branchLocation?_node]
    cases part.branchLocation? <;> simp
  | branch branch =>
    obtain ⟨kind, condition, children, location⟩ := branch
    obtain ⟨node, -, rfl⟩ := List.mem_map.mp h
    exact Nat.le_refl 1

/-- Two of the brackets that a branch takes are outside of it, so they are added where the part is
a branch itself. -/
theorem branches_of_mem_visits {part : Part} {answer : Place → Item → Action} {visit : Visit}
    (h : visit ∈ part.visits answer) :
    4 * visit.branches.length + 1 ≤
      part.toJson.depth + 2 * part.branchLocation?.toList.length := by
  induction part using Part.induction generalizing answer visit with
  | value v =>
    rw [visits_value, List.mem_singleton] at h
    subst h
    have hpos := depth_part_pos (.value v)
    simp only [Visit.branches, Call.part, Part.branchLocation?, List.filterMap_nil,
      Option.toList_none, List.append_nil, List.length_nil]
    omega
  | item item ih =>
    rcases exists_of_mem_visits h with ⟨haround, hpart⟩ | ⟨part, hpart, answer', inner, hinner,
      haround, hcall⟩
    · have hbranches : visit.branches = item.branchLocation?.toList := by
        unfold Visit.branches
        rw [haround, hpart, List.filterMap_nil, List.nil_append, Part.branchLocation?]
      rw [hbranches, Part.branchLocation?]
      cases item with
      | node node =>
        have hpos := depth_part_pos (.item (.node node))
        rw [Item.branchLocation?_node, Option.toList_none, List.length_nil]
        omega
      | branch branch =>
        have hbranch := three_le_depth_branch branch
        rw [Item.branchLocation?_branch, Option.toList_some, List.length_singleton, Part.toJson]
        omega
    · have hstep := depth_of_mem_parts hpart
      have hinside := ih part hpart hinner
      have hbranches := branches_of_mem_parts hpart
      rw [branches_cons haround hcall, List.length_append, Part.branchLocation?]
      omega

theorem branches_of_mem_sheet_visits {sheet : Sheet} {answer : Place → Item → Action}
    {visit : Visit} (h : visit ∈ sheet.visits answer) :
    4 * visit.branches.length + 3 ≤ sheet.toJson.depth := by
  obtain ⟨part, hpart, answer', inner, hinner, haround, hcall⟩ := exists_of_mem_visitsFrom h
  have hsheet := depth_of_mem_sheet hpart
  have hinside := branches_of_mem_visits hinner
  have hbranches : visit.branches = inner.branches := by
    unfold Visit.branches
    rw [haround, hcall]
  obtain ⟨node, -, rfl⟩ := List.mem_map.mp hpart
  have hnone : (Part.ofNode node).branchLocation? = none := rfl
  rw [hnone, Option.toList_none, List.length_nil] at hinside
  rw [hbranches]
  omega

end StyleScope
