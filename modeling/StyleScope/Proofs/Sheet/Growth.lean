import StyleScope.Proofs.Json.Levels
import StyleScope.Proofs.Json.Records
import StyleScope.Sheet.Encode
import StyleScope.Sheet.Nesting

/-!
# How deep what is written of a node is nested

A list that was left out is written as an empty one, which takes a bracket. So what is written of a
node is nested at most one bracket deeper than the value it was read from.
-/

namespace StyleScope

open Json (Mismatch Shape ReadsOnly)

/-! ## Lists -/

theorem readsOnly_any {α : Type} (depth : Nat) (read : Json → Except Mismatch α) :
    ReadsOnly depth read fun _ => True := by
  intro json value _ _
  trivial

theorem depth_list_map_le {α : Type} {write : α → Json} {as : List α} {depth : Nat}
    (h : ∀ a ∈ as, (write a).depth ≤ depth) : (Json.list (as.map write)).depth ≤ depth + 1 := by
  rw [Json.depth]
  apply Nat.succ_le_succ
  apply Json.depthOfItems_le
  rw [List.forall_mem_map]
  exact h

/-! ## Places and values -/

theorem depth_location (location : Location) : location.toJson.depth = 2 := rfl

theorem depth_condition (condition : Option String) :
    (Json.ofOption .string condition).depth = 0 := by
  cases condition <;> rfl

section

variable {depth : Nat}

theorem depth_locationToJson_le {location : Option Location} (h : ∀ l ∈ location, 2 ≤ depth) :
    (locationToJson location).depth ≤ depth := by
  rcases location with _ | location
  · exact Nat.zero_le _
  · exact h location rfl

theorem readsOnly_position : ReadsOnly depth Position.ofJson fun _ => 1 ≤ depth := by
  have hany : Position.shape.Yields (depth - 1) fun _ => True := by
    intro find lack value _ _
    trivial
  intro json value hdepth hread
  exact (hany.read _ json value hdepth hread).1

theorem readsOnly_location : ReadsOnly depth Location.ofJson fun _ => 2 ≤ depth := by
  have hfield : ∀ name, (Shape.required name Position.ofJson).Yields (depth - 1) fun _ =>
      1 ≤ depth - 1 := by
    intro name
    exact .required name readsOnly_position
  have hshape := ((hfield "begin").map Location.mk).seq (hfield "end")
  intro json value hdepth hread
  obtain ⟨hpos, _, _, -, hend, -⟩ := hshape.read _ json value hdepth hread
  omega

theorem yields_optionalLocation :
    optionalLocation.Yields depth fun location => (locationToJson location).depth ≤ depth := by
  apply Shape.Yields.optional
  · exact Nat.zero_le depth
  · intro json location hdepth hread
    exact depth_locationToJson_le (readsOnly_location.asOption json location hdepth hread)

theorem yields_requiredLocation : requiredLocation.Yields depth fun _ => 2 ≤ depth :=
  .required _ readsOnly_location

theorem readsOnly_value :
    ReadsOnly depth Value.ofJson fun value => 1 ≤ depth ∧ value.toJson.depth ≤ depth := by
  have htext := Shape.Yields.required "text" (readsOnly_any (depth - 1) Json.asString)
  have hshape := (htext.map Value.mk).seq yields_optionalLocation
  intro json value hdepth hread
  obtain ⟨hpos, _, location, ⟨text, -, rfl⟩, hlocation, rfl⟩ :=
    hshape.read _ json value hdepth hread
  constructor
  · exact hpos
  · simp only [Value.toJson, Json.depth, Json.depthOfMembers]
    omega

theorem yields_optionalValues (name : String) :
    (optionalValues name).Yields depth fun values => (valuesToJson values).depth ≤ depth + 1 := by
  apply Shape.Yields.optional
  · exact Nat.le_add_left 1 depth
  · intro json values hdepth hread
    obtain ⟨hpos, hvalues⟩ := ReadsOnly.asList (fun _ => readsOnly_value) json values hdepth hread
    apply depth_list_map_le
    intro value hv
    have := (hvalues value hv).2
    omega

end

/-! ## Nodes -/

theorem nodeItems_eq_map (nodes : List Node) : nodeItems nodes = nodes.map Node.toJson := by
  induction nodes with
  | nil => rfl
  | cons node nodes ih => rw [nodeItems, ih, List.map_cons]

theorem branchItems_eq_map (branches : List Branch) :
    branchItems branches = branches.map Branch.toJson := by
  induction branches with
  | nil => rfl
  | cons branch branches ih => rw [branchItems, ih, List.map_cons]

theorem depth_strings_le (strings : List String) :
    (Json.list (strings.map .string)).depth ≤ 1 := by
  apply depth_list_map_le
  intro s _
  exact Nat.le_refl 0

section

-- The induction is on the depth: what holds of the nodes inside is shown to hold of a node.
variable {depth : Nat}
  (hnode : ∀ inner < depth, ReadsOnly inner Node.ofJson fun node => node.toJson.depth ≤ inner + 1)

include hnode

theorem readsOnly_nodes :
    ReadsOnly depth (Json.asList Node.ofJson) fun nodes =>
      (Json.list (nodeItems nodes)).depth ≤ depth + 1 := by
  intro json nodes hdepth hread
  obtain ⟨hpos, hnodes⟩ := ReadsOnly.asList (fun hpos => hnode (depth - 1) (by omega))
    json nodes hdepth hread
  rw [nodeItems_eq_map]
  apply depth_list_map_le
  intro node hn
  have := hnodes node hn
  omega

theorem yields_optionalNodes :
    (optionalNodes Node.ofJson).Yields depth fun nodes =>
      (Json.list (nodeItems nodes)).depth ≤ depth + 1 := by
  apply Shape.Yields.optional
  · exact Nat.le_add_left 1 depth
  · exact readsOnly_nodes hnode

theorem readsOnly_branch :
    ReadsOnly depth (Branch.ofJson Node.ofJson) fun branch => branch.toJson.depth ≤ depth + 1 := by
  have hkind := Shape.Yields.required "kind" (readsOnly_any (depth - 1) Branch.Kind.ofJson)
  have hcondition : (Shape.optional "condition" none (Json.asOption Json.asString)).Yields
      (depth - 1) fun _ => True := .optional _ trivial (readsOnly_any _ _)
  have hchildren : (optionalNodes Node.ofJson).Yields (depth - 1) _ :=
    yields_optionalNodes fun inner hlt => hnode inner (by omega)
  have hshape := (((hkind.map Branch.mk).seq hcondition).seq hchildren).seq yields_requiredLocation
  intro json branch hdepth hread
  obtain ⟨hpos, _, location, ⟨_, children, ⟨_, condition, ⟨kind, -, rfl⟩, -, rfl⟩, hchildren, rfl⟩,
    hlocation, rfl⟩ := hshape.read _ json branch hdepth hread
  simp only [Branch.toJson, Json.depth, Json.depthOfMembers, depth_condition, depth_location] at *
  omega

theorem readsOnly_branches :
    ReadsOnly depth (Json.asList (Branch.ofJson Node.ofJson)) fun branches =>
      (Json.list (branchItems branches)).depth ≤ depth + 1 := by
  intro json branches hdepth hread
  obtain ⟨hpos, hbranches⟩ := ReadsOnly.asList
    (fun _ => readsOnly_branch fun inner hlt => hnode inner (by omega)) json branches hdepth hread
  rw [branchItems_eq_map]
  apply depth_list_map_le
  intro branch hb
  have := hbranches branch hb
  omega

theorem yields_shape (kind : Node.Kind) :
    (Node.shape Node.ofJson kind).Yields depth fun node => node.toJson.depth ≤ depth + 2 := by
  cases kind with
  | conditionalBlock =>
    have hshape := ((Shape.Yields.required "rules" (readsOnly_branches hnode)).map
      Node.conditionalBlock).seq yields_optionalLocation
    refine hshape.mono ?_
    rintro _ ⟨_, location, ⟨branches, hbranches, rfl⟩, hlocation, rfl⟩
    simp only [Node.toJson, Json.depth, Json.depthOfMembers] at *
    omega
  | definition =>
    have hname := Shape.Yields.required "name" (readsOnly_any depth Json.asString)
    have hshape := ((hname.map Node.definition).seq (yields_optionalValues "values")).seq
      yields_requiredLocation
    refine hshape.mono ?_
    rintro _ ⟨_, location, ⟨_, values, ⟨name, -, rfl⟩, hvalues, rfl⟩, hlocation, rfl⟩
    simp only [Node.toJson, Json.depth, Json.depthOfMembers, depth_location]
    omega
  | atRule =>
    have hblock : (Shape.optional "block" none (Json.asOption (Json.asList Node.ofJson))).Yields
        depth fun block => ∀ nodes ∈ block, (Json.list (nodeItems nodes)).depth ≤ depth + 1 := by
      apply Shape.Yields.optional
      · intro nodes hnodes
        cases hnodes
      · exact (readsOnly_nodes hnode).asOption
    have hname := Shape.Yields.required "name" (readsOnly_any depth Json.asString)
    have hshape := (((hname.map Node.atRule).seq (yields_optionalValues "params")).seq hblock).seq
      yields_requiredLocation
    refine hshape.mono ?_
    rintro _ ⟨_, location, ⟨_, block, ⟨_, params, ⟨name, -, rfl⟩, hparams, rfl⟩, hblock, rfl⟩,
      hlocation, rfl⟩
    rcases block with _ | nodes
    · simp only [Node.toJson, Json.depth, Json.depthOfMembers, depth_location]
      omega
    · have hnodes := hblock nodes rfl
      simp only [Node.toJson, Json.depth, Json.depthOfMembers, depth_location] at *
      omega
  | ruleset =>
    have hselectors := Shape.Yields.required "selectors"
      (readsOnly_any depth (Json.asList Json.asString))
    have hshape := ((hselectors.map Node.ruleset).seq (yields_optionalNodes hnode)).seq
      yields_optionalLocation
    refine hshape.mono ?_
    rintro _ ⟨_, location, ⟨_, children, ⟨selectors, -, rfl⟩, hchildren, rfl⟩, hlocation, rfl⟩
    have hselectors := depth_strings_le selectors
    simp only [Node.toJson, Json.depth, Json.depthOfMembers] at *
    omega
  | declaration =>
    have hproperty := Shape.Yields.required "property" (readsOnly_any depth Json.asString)
    have hshape := ((hproperty.map Node.declaration).seq (yields_optionalValues "values")).seq
      yields_optionalLocation
    refine hshape.mono ?_
    rintro _ ⟨_, location, ⟨_, values, ⟨property, -, rfl⟩, hvalues, rfl⟩, hlocation, rfl⟩
    simp only [Node.toJson, Json.depth, Json.depthOfMembers]
    omega

end

/-- What is written of a node is nested at most one bracket deeper than what it was read from. -/
theorem readsOnly_node (depth : Nat) :
    ReadsOnly depth Node.ofJson fun node => node.toJson.depth ≤ depth + 1 := by
  induction depth using Nat.strongRecOn with
  | ind depth ih =>
    have hbody : ∀ kind, ReadsOnly depth (Node.ofBody Node.ofJson kind) fun node =>
        1 ≤ depth ∧ node.toJson.depth ≤ depth - 1 + 2 := by
      intro kind
      apply Shape.Yields.read
      exact yields_shape (fun inner hlt => ih inner (by omega)) kind
    intro json node hdepth hread
    rw [Node.ofJson_eq] at hread
    cases json with
    | object members =>
      cases hkind : Node.kindOfMembers members with
      | error what =>
        rw [Node.ofJsonWith, hkind] at hread
        cases hread
      | ok kind =>
        rw [Node.ofJsonWith, hkind] at hread
        have hfields : (Json.object (members.filter (·.1 ≠ Node.tagName))).depth ≤ depth := by
          rw [Json.depth] at hdepth ⊢
          exact Nat.le_trans
            (Nat.succ_le_succ (Json.depthOfMembers_filter_le _ members)) hdepth
        have := hbody kind _ node hfields hread
        omega
    | list items =>
      cases items with
      | nil => cases hread
      | cons tag items =>
        cases hkind : Node.Kind.ofJson tag with
        | error what =>
          rw [Node.ofJsonWith, hkind] at hread
          cases hread
        | ok kind =>
          rw [Node.ofJsonWith, hkind] at hread
          rw [Json.depth, Json.depthOfItems] at hdepth
          have := hbody kind (.list items) node (by rw [Json.depth]; omega) hread
          omega
    | _ => cases hread

theorem Sheet.depth_le {depth : Nat} {sheet : Sheet}
    (h : ∀ node ∈ sheet.nodes, ∃ json : Json, json.depth ≤ depth ∧ Node.ofJson json = .ok node) :
    sheet.toJson.depth ≤ depth + 3 := by
  have hnodes : (Json.list (nodeItems sheet.nodes)).depth ≤ depth + 2 := by
    rw [nodeItems_eq_map]
    apply depth_list_map_le
    intro node hn
    obtain ⟨json, hdepth, hread⟩ := h node hn
    exact readsOnly_node depth json node hdepth hread
  simp only [Sheet.toJson, Json.depth, Json.depthOfMembers] at hnodes ⊢
  omega

end StyleScope
