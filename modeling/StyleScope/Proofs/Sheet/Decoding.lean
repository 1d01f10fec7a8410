import StyleScope.Proofs.Json.Records
import StyleScope.Sheet.Encode
import StyleScope.Sheet.Nesting

/-!
# Reading back what was written

Every part of a sheet is the one that its JSON value is read as.
-/

namespace StyleScope

open Json (Mismatch Shape)

/-! ## Places and values -/

theorem asWord_ofWord (n : UInt32) : Json.asWord (.ofWord n) = .ok n := by
  have hlt : n.toNat < UInt32.size := n.toNat_lt
  unfold Json.ofWord Json.integer Json.asWord
  simp only
  rw [if_pos ⟨Int.natCast_nonneg _, by omega⟩, Int.toNat_natCast, UInt32.ofNat_toNat]

theorem Position.ofJson_toJson (position : Position) :
    Position.ofJson position.toJson = .ok position := by
  have hnames : ["line", "column", "offset"].Nodup := by simp
  have hreads := (((Shape.Reads.required "line" (asWord_ofWord position.line)).map Position.mk).seq
    (.required "column" (asWord_ofWord position.column))).seq
    (.required "offset" (asWord_ofWord position.offset))
  exact hreads.ofMembers hnames

theorem Location.ofJson_toJson (location : Location) :
    Location.ofJson location.toJson = .ok location := by
  have hnames : ["begin", "end"].Nodup := by simp
  have hreads := ((Shape.Reads.required "begin" location.start.ofJson_toJson).map Location.mk).seq
    (.required "end" location.stop.ofJson_toJson)
  exact hreads.ofMembers hnames

theorem asOption_location (location : Option Location) :
    Json.asOption Location.ofJson (locationToJson location) = .ok location := by
  rcases location with _ | location
  · rfl
  · apply Json.asOption_of_ne_null
    · intro hnull
      cases hnull
    · exact location.ofJson_toJson

theorem reads_optionalLocation (location : Option Location) :
    optionalLocation.Reads [("location", locationToJson location)] [] location :=
  .optional _ _ (asOption_location location)

theorem reads_requiredLocation (location : Location) :
    requiredLocation.Reads [("location", location.toJson)] [] location :=
  .required _ location.ofJson_toJson

theorem Value.ofJson_toJson (value : Value) : Value.ofJson value.toJson = .ok value := by
  have hnames : ["text", "location"].Nodup := by simp
  have htext : Json.asString (.string value.text) = .ok value.text := rfl
  have hreads := ((Shape.Reads.required "text" htext).map Value.mk).seq
    (reads_optionalLocation value.location)
  exact hreads.ofMembers hnames

theorem reads_optionalValues (name : String) (values : List Value) :
    (optionalValues name).Reads [(name, valuesToJson values)] [] values := by
  apply Shape.Reads.optional
  apply Json.asList_map
  intro value _
  exact value.ofJson_toJson

/-! ## Kinds -/

theorem Branch.Kind.name_inj : ∀ a ∈ all, ∀ b ∈ all, a.name = b.name → a = b := by
  intro a _ b _ h
  cases a <;> cases b <;> simp [name] at h ⊢

theorem Node.Kind.name_inj : ∀ a ∈ all, ∀ b ∈ all, a.name = b.name → a = b := by
  intro a _ b _ h
  cases a <;> cases b <;> simp [name] at h ⊢

theorem Branch.Kind.ofJson_name (kind : Branch.Kind) :
    Branch.Kind.ofJson (.string kind.name) = .ok kind :=
  Json.named_eq name_inj (by cases kind <;> decide)

theorem Node.Kind.ofName_name (kind : Node.Kind) : Node.Kind.ofName kind.name = .ok kind :=
  Json.named_eq name_inj (by cases kind <;> decide)

/-! ## Nodes -/

theorem asList_strings (strings : List String) :
    Json.asList Json.asString (.list (strings.map .string)) = .ok strings := by
  apply Json.asList_map
  intro s _
  rfl

theorem asOption_condition (condition : Option String) :
    Json.asOption Json.asString (.ofOption .string condition) = .ok condition := by
  cases condition <;> rfl

theorem Node.ofJson_tagged (kind : Kind) {fields : List Json.Member}
    (h : tagName ∉ fields.map Prod.fst) :
    ofJson (.object ((tagName, .string kind.name) :: fields)) =
      (shape ofJson kind).ofMembers fields := by
  have hne : ∀ member ∈ fields, member.1 ≠ tagName := by
    rintro member hm heq
    exact h (heq ▸ List.mem_map_of_mem hm)
  have hnone : fields.filter (·.1 = tagName) = [] := by
    rw [List.filter_eq_nil_iff]
    intro member hm
    simpa using hne member hm
  have hall : fields.filter (·.1 ≠ tagName) = fields := by
    rw [List.filter_eq_self]
    intro member hm
    simpa using hne member hm
  have hkind : kindOfMembers ((tagName, .string kind.name) :: fields) = .ok kind := by
    unfold kindOfMembers
    rw [List.filter_cons_of_pos (by simp), hnone]
    exact Kind.ofName_name kind
  rw [ofJson_eq, ofJsonWith, hkind, List.filter_cons_of_neg (by simp), hall]
  rfl

theorem Node.ofJson_fields (kind : Kind) {fields : List Json.Member} {absent : List String}
    {node : Node} (h : (shape ofJson kind).Reads fields absent node)
    (hnames : (tagName :: (fields.map Prod.fst ++ absent)).Nodup) :
    ofJson (.object ((tagName, .string kind.name) :: fields)) = .ok node := by
  obtain ⟨htag, hnodup⟩ := List.nodup_cons.mp hnames
  rw [ofJson_tagged]
  · exact h.ofMembers hnodup
  · intro hmem
    exact htag (List.mem_append_left _ hmem)

theorem reads_optionalNodes {nodes : List Node}
    (h : Json.asList Node.ofJson (.list (nodeItems nodes)) = .ok nodes) :
    (optionalNodes Node.ofJson).Reads [("children", .list (nodeItems nodes))] [] nodes :=
  .optional _ _ h

theorem mapM_cons_ok {α β : Type} {f : α → Except Mismatch β} {a : α} {as : List α} {b : β}
    {bs : List β} (h : f a = .ok b) (hs : as.mapM f = .ok bs) :
    (a :: as).mapM f = .ok (b :: bs) := by
  rw [List.mapM_cons, h, hs]
  rfl

mutual

theorem Node.ofJson_toJson (node : Node) : Node.ofJson node.toJson = .ok node := by
  match node with
  | .conditionalBlock branches location =>
    have hnames : ["type", "rules", "location"].Nodup := by simp
    have hbranches : Json.asList (Branch.ofJson Node.ofJson) (.list (branchItems branches)) =
        .ok branches := ofJson_branchItems branches
    have hreads := ((Shape.Reads.required "rules" hbranches).map Node.conditionalBlock).seq
      (reads_optionalLocation location)
    exact Node.ofJson_fields .conditionalBlock hreads hnames
  | .definition name values location =>
    have hnames : ["type", "name", "values", "location"].Nodup := by simp
    have hname : Json.asString (.string name) = .ok name := rfl
    have hreads := (((Shape.Reads.required "name" hname).map Node.definition).seq
      (reads_optionalValues "values" values)).seq (reads_requiredLocation location)
    exact Node.ofJson_fields .definition hreads hnames
  | .atRule name params none location =>
    have hnames : ["type", "name", "params", "block", "location"].Nodup := by simp
    have hname : Json.asString (.string name) = .ok name := rfl
    have hblock : Json.asOption (Json.asList Node.ofJson) .null = .ok none := rfl
    have hreads := ((((Shape.Reads.required "name" hname).map Node.atRule).seq
      (reads_optionalValues "params" params)).seq (.optional "block" none hblock)).seq
      (reads_requiredLocation location)
    exact Node.ofJson_fields .atRule hreads hnames
  | .atRule name params (some nodes) location =>
    have hnames : ["type", "name", "params", "block", "location"].Nodup := by simp
    have hname : Json.asString (.string name) = .ok name := rfl
    have hblock : Json.asOption (Json.asList Node.ofJson) (.list (nodeItems nodes)) =
        .ok (some nodes) := by
      apply Json.asOption_of_ne_null
      · intro hnull
        cases hnull
      · exact ofJson_nodeItems nodes
    have hreads := ((((Shape.Reads.required "name" hname).map Node.atRule).seq
      (reads_optionalValues "params" params)).seq (.optional "block" none hblock)).seq
      (reads_requiredLocation location)
    exact Node.ofJson_fields .atRule hreads hnames
  | .ruleset selectors children location =>
    have hnames : ["type", "selectors", "children", "location"].Nodup := by simp
    have hreads := (((Shape.Reads.required "selectors" (asList_strings selectors)).map
      Node.ruleset).seq (reads_optionalNodes (ofJson_nodeItems children))).seq
      (reads_optionalLocation location)
    exact Node.ofJson_fields .ruleset hreads hnames
  | .declaration property values location =>
    have hnames : ["type", "property", "values", "location"].Nodup := by simp
    have hproperty : Json.asString (.string property) = .ok property := rfl
    have hreads := (((Shape.Reads.required "property" hproperty).map Node.declaration).seq
      (reads_optionalValues "values" values)).seq (reads_optionalLocation location)
    exact Node.ofJson_fields .declaration hreads hnames

theorem Branch.ofJson_toJson (branch : Branch) :
    Branch.ofJson Node.ofJson branch.toJson = .ok branch := by
  match branch with
  | ⟨kind, condition, children, location⟩ =>
    have hnames : ["kind", "condition", "children", "location"].Nodup := by simp
    have hreads := ((((Shape.Reads.required "kind" kind.ofJson_name).map Branch.mk).seq
      (.optional "condition" none (asOption_condition condition))).seq
      (reads_optionalNodes (ofJson_nodeItems children))).seq (reads_requiredLocation location)
    exact hreads.ofMembers hnames

theorem ofJson_nodeItems (nodes : List Node) :
    (nodeItems nodes).mapM Node.ofJson = .ok nodes := by
  match nodes with
  | [] => rfl
  | node :: nodes => exact mapM_cons_ok node.ofJson_toJson (ofJson_nodeItems nodes)

theorem ofJson_branchItems (branches : List Branch) :
    (branchItems branches).mapM (Branch.ofJson Node.ofJson) = .ok branches := by
  match branches with
  | [] => rfl
  | branch :: branches => exact mapM_cons_ok branch.ofJson_toJson (ofJson_branchItems branches)

end

/-! ## A ruleset around a node -/

/-- A ruleset without selectors around one value. Its place is left out. -/
def rulesetAround (json : Json) : Json :=
  .object [("type", .string "ruleset"), ("selectors", .list []), ("children", .list [json])]

theorem ofJson_rulesetAround {json : Json} {node : Node} (h : Node.ofJson json = .ok node) :
    Node.ofJson (rulesetAround json) = .ok (.ruleset [] [node] none) := by
  have hnames : ["type", "selectors", "children", "location"].Nodup := by simp
  have hselectors : Json.asList Json.asString (.list []) = .ok [] := rfl
  have hchildren : Json.asList Node.ofJson (.list [json]) = .ok [node] := mapM_cons_ok h rfl
  have hreads := (((Shape.Reads.required "selectors" hselectors).map Node.ruleset).seq
    (.optional "children" [] hchildren)).seq
    (.default "location" none (Json.asOption Location.ofJson))
  exact Node.ofJson_fields .ruleset hreads hnames

theorem exists_of_ofJson_rulesetAround {json : Json} {node : Node}
    (h : Node.ofJson (rulesetAround json) = .ok node) : ∃ child, Node.ofJson json = .ok child := by
  -- The fields get a name, so that they are looked up by a lemma and not by evaluation.
  obtain ⟨fields, hfields⟩ : ∃ fields : List Json.Member,
      fields = [("selectors", .list []), ("children", .list [json])] := ⟨_, rfl⟩
  have hnames : ("type" :: fields.map Prod.fst).Nodup := by
    rw [hfields]
    simp
  obtain ⟨htag, hnodup⟩ := List.nodup_cons.mp hnames
  have hread : (Node.shape Node.ofJson .ruleset).ofMembers fields = .ok node := by
    rw [← Node.ofJson_tagged .ruleset htag, hfields]
    exact h
  obtain ⟨_, _, hleft, -, -⟩ := Json.combine_eq_all (Shape.gather_of_ofMembers hread)
  obtain ⟨_, children, -, hchildren, -⟩ := Json.combine_eq_all hleft
  have hmem : ("children", .list [json]) ∈ fields := by simp [hfields]
  obtain ⟨index, hfind⟩ := Shape.firstNamed_of_mem hnodup hmem
  unfold optionalNodes Shape.optional at hchildren
  simp only [hfind] at hchildren
  rcases hjson : Node.ofJson json with what | child
  · have hlist : Json.asList Node.ofJson (.list [json]) = .error what := by
      change [json].mapM Node.ofJson = _
      rw [List.mapM_cons, hjson]
      rfl
    rw [hlist] at hchildren
    cases hchildren
  · exact ⟨child, rfl⟩

end StyleScope
