import StyleScope.Proofs.Scope.Findings

/-!
# What a walk of the validator reports

A walk reports the findings of its nodes in document order, and leaves open what was open. A run is
a walk with nothing open, so a sheet is validated to its findings.
-/

namespace StyleScope

namespace Validator

variable {S : Type} [Sink S]

/-! ## Visits -/

theorem visit_node {validator : Validator S} {node : Node} {around : List Item}
    {inner : List Occurrence} {inside : Validation S Unit}
    (hscope : validator.scopes.head? = nearestBranch around)
    (hdescend : (validator.enter (.node node)).1 = .descend)
    (hinside : ∀ entered : Validator S, entered.scopes = validator.scopes →
      inside entered = .ok ((), entered.reportAll (diagnosticsOf entered.mode inner))) :
    visitor.visit (.node node) inside validator =
      .ok ((), validator.reportAll (diagnosticsOf validator.mode (⟨node, around⟩ :: inner))) := by
  have henter := enter_node validator node around hscope
  have hmodify : (visitor.enter (.node node) : Validation S Action) validator =
      .ok (.descend, (validator.enter (.node node)).2) := by
    rw [← hdescend]
    rfl
  simp only [Visitor.visit, bind, StateT.bind, Except.bind, hmodify, henter,
    hinside _ (reportAll_scopes ..)]
  rw [diagnosticsOf_cons, reportAll_append]
  rfl

-- A constant does not let the walk into it, so what `inside` does is of no matter.
theorem visit_definition {validator : Validator S} {around : List Item} (name : String)
    (values : List Value) (location : Location) (inside : Validation S Unit)
    (hscope : validator.scopes.head? = nearestBranch around) :
    visitor.visit (.node (.definition name values location)) inside validator =
      .ok ((), validator.reportAll
        (diagnosticsOf validator.mode [⟨.definition name values location, around⟩])) := by
  rw [diagnosticsOf_cons, diagnosticsOf_nil, List.append_nil, ← enter_node _ _ _ hscope]
  rfl

theorem visit_branch {validator after : Validator S} {branch : Branch}
    {inside : Validation S Unit}
    (hinside : inside { validator with scopes := branch.location :: validator.scopes } =
      .ok ((), { after with scopes := branch.location :: validator.scopes }))
    (hafter : after.scopes = validator.scopes) :
    visitor.visit (.branch branch) inside validator = .ok ((), after) := by
  have hmodify : (visitor.enter (.branch branch) : Validation S Action) validator =
      .ok (.descend, { validator with scopes := branch.location :: validator.scopes }) := rfl
  simp only [Visitor.visit, bind, StateT.bind, Except.bind, hmodify, hinside]
  simp only [visitor, leave, ↓reduceIte, ← hafter]
  rfl

theorem walkValues_eq (validator : Validator S) (values : List Value) :
    visitor.walkValues values validator = .ok ((), validator) := by
  induction values with
  | nil => rfl
  | cons value values ih => exact ih

/-! ## Walks -/

theorem walkNodes_cons {validator after last : Validator S} {node : Node} {nodes : List Node}
    (hnode : visitor.walkNode node validator = .ok ((), after))
    (hnodes : visitor.walkNodes nodes after = .ok ((), last)) :
    visitor.walkNodes (node :: nodes) validator = .ok ((), last) := by
  rw [Visitor.walkNodes]
  simp only [bind, StateT.bind, Except.bind, hnode, hnodes]

theorem walkBranches_cons {validator after last : Validator S} {branch : Branch}
    {branches : List Branch} (hbranch : visitor.walkBranch branch validator = .ok ((), after))
    (hbranches : visitor.walkBranches branches after = .ok ((), last)) :
    visitor.walkBranches (branch :: branches) validator = .ok ((), last) := by
  rw [Visitor.walkBranches]
  simp only [bind, StateT.bind, Except.bind, hbranch, hbranches]

mutual

/-- A walk of a node reports what the ancestors of the nodes in it say, if the innermost branch that
is open is the nearest one around the node, and it leaves open what was open. -/
theorem walkNode_eq (validator : Validator S) (around : List Item) (node : Node)
    (hscope : validator.scopes.head? = nearestBranch around) :
    visitor.walkNode node validator =
      .ok ((), validator.reportAll (diagnosticsOf validator.mode (node.occurrences around))) := by
  match node with
  | .conditionalBlock branches location =>
    rw [Visitor.walkNode, Node.occurrences]
    apply visit_node hscope rfl
    intro entered _
    exact walkBranches_eq entered _ branches
  | .definition name values location =>
    rw [Visitor.walkNode, Node.occurrences]
    exact visit_definition name values location _ hscope
  | .atRule name params none location =>
    rw [Visitor.walkNode, Node.occurrences]
    apply visit_node hscope rfl
    intro entered _
    exact walkValues_eq entered params
  | .atRule name params (some nodes) location =>
    rw [Visitor.walkNode, Node.occurrences]
    apply visit_node hscope rfl
    intro entered hentered
    simp only [bind, StateT.bind, Except.bind, walkValues_eq]
    exact walkNodes_eq entered _ nodes (hentered ▸ hscope)
  | .ruleset selectors children location =>
    rw [Visitor.walkNode, Node.occurrences]
    apply visit_node hscope rfl
    intro entered hentered
    exact walkNodes_eq entered _ children (hentered ▸ hscope)
  | .declaration property values location =>
    rw [Visitor.walkNode, Node.occurrences]
    apply visit_node hscope rfl
    intro entered _
    exact walkValues_eq entered values

theorem walkBranch_eq (validator : Validator S) (around : List Item) (branch : Branch) :
    visitor.walkBranch branch validator =
      .ok ((), validator.reportAll (diagnosticsOf validator.mode (branch.occurrences around))) := by
  match branch with
  | ⟨kind, condition, children, location⟩ =>
    rw [Visitor.walkBranch, Branch.occurrences]
    -- Inside the branch it is both the innermost open one and the nearest one around.
    exact visit_branch (walkNodes_eq _ _ children rfl) rfl

theorem walkNodes_eq (validator : Validator S) (around : List Item) (nodes : List Node)
    (hscope : validator.scopes.head? = nearestBranch around) :
    visitor.walkNodes nodes validator =
      .ok ((), validator.reportAll (diagnosticsOf validator.mode (nodesOccurrences around nodes))) := by
  match nodes with
  | [] => rfl
  | node :: nodes =>
    rw [nodesOccurrences, diagnosticsOf_append, reportAll_append]
    exact walkNodes_cons (walkNode_eq _ _ node hscope) (walkNodes_eq _ _ nodes hscope)

theorem walkBranches_eq (validator : Validator S) (around : List Item) (branches : List Branch) :
    visitor.walkBranches branches validator =
      .ok ((), validator.reportAll
        (diagnosticsOf validator.mode (branchesOccurrences around branches))) := by
  match branches with
  | [] => rfl
  | branch :: branches =>
    rw [branchesOccurrences, diagnosticsOf_append, reportAll_append]
    exact walkBranches_cons (walkBranch_eq _ _ branch) (walkBranches_eq _ _ branches)

end

-- Any stack of open branches is the nearest branch of some ancestors.
theorem walkNodes_ok (validator : Validator S) (nodes : List Node) :
    ∃ diagnostics, visitor.walkNodes nodes validator = .ok ((), validator.reportAll diagnostics) :=
  ⟨_, walkNodes_eq validator _ nodes (nearestBranch_asAncestors validator.scopes).symm⟩

/-! ## Runs -/

theorem run_eq (validator : Validator S) (sheet : Sheet) :
    run sheet validator =
      .ok ((), ({ validator with scopes := [] } : Validator S).reportAll
        (diagnosticsOf validator.mode sheet.occurrences)) := by
  have hwalk := walkNodes_eq { validator with scopes := [] } [] sheet.nodes rfl
  simp only [run, Visitor.walkSheet, bind, StateT.bind, Except.bind, modify, modifyGet,
    MonadStateOf.modifyGet, StateT.modifyGet, pure, Except.pure, hwalk]
  rfl

theorem run_ok (validator : Validator S) (sheet : Sheet) :
    ∃ diagnostics, run sheet validator =
      .ok ((), ({ validator with scopes := [] } : Validator S).reportAll diagnostics) :=
  ⟨_, run_eq validator sheet⟩

end Validator

namespace Diagnostics

theorem toList_foldl_report (sink : Diagnostics) (diagnostics : List Diagnostic) :
    (diagnostics.foldl Sink.report sink).toList = sink.toList ++ diagnostics := by
  induction diagnostics generalizing sink with
  | nil => simp
  | cons diagnostic rest ih =>
    rw [List.foldl_cons, ih]
    change (sink.report diagnostic).toList ++ rest = _
    rw [toList_report, List.append_assoc, List.singleton_append]

end Diagnostics

/-- The diagnostics for a sheet are those that the ancestors of its nodes call for, in document
order. -/
theorem validate_eq_diagnosticsOf (sheet : Sheet) (mode : Mode) :
    (sheet.validate mode).map Diagnostics.toList =
      .ok (diagnosticsOf mode sheet.occurrences) := by
  have hrun : Validator.run sheet (.start mode Diagnostics.empty) = _ := Validator.run_eq _ sheet
  simp only [Sheet.validate, StateT.run, bind, Except.bind, hrun, pure, Except.pure, Except.map]
  simp [Validator.reportAll, Validator.start, Diagnostics.toList_foldl_report]

end StyleScope
