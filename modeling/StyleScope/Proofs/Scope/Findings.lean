import StyleScope.Proofs.Walk.Occurrence
import StyleScope.Scope.Validator

/-!
# What must not stand where it does

The findings of a sheet are defined on ancestors, with no walk and no state. The validator reports
the same of a node if its innermost open branch is the nearest branch around the node.
-/

namespace StyleScope

/-! ## Findings by ancestors -/

/-- The place of a branch. -/
def Item.branchLocation? : Item → Option Location
  | .branch ⟨_, _, _, location⟩ => some location
  | .node _ => none

@[simp] theorem Item.branchLocation?_branch (branch : Branch) :
    (Item.branch branch).branchLocation? = some branch.location := by
  cases branch
  rfl

@[simp] theorem Item.branchLocation?_node (node : Node) :
    (Item.node node).branchLocation? = none := rfl

/-- The place of the nearest branch among ancestors. -/
def nearestBranch (around : List Item) : Option Location := around.findSome? Item.branchLocation?

/-- The words for a finding: that something cannot be done, or that it should not. -/
def Finding.wording : Finding → Mode → String
  | .definition, .strict =>
    "You cannot define a constant inside a conditional block that will be evaluated at runtime."
  | .external, .strict =>
    "You cannot define an @external at-rule inside a conditional block that will be " ++
      "evaluated at runtime."
  | .definition, .lenient =>
    "You should not define a constant inside a conditional block that will be evaluated at " ++
      "runtime. This will be disallowed in a future release."
  | .external, .lenient =>
    "You should not define an @external at-rule inside a conditional block that will be " ++
      "evaluated at runtime. This will be disallowed in a future release."

/-- Open branches, innermost first, as the ancestors of what is walked inside them. -/
def asAncestors (scopes : List Location) : List Item :=
  scopes.map fun location => .branch ⟨.opening, none, [], location⟩

theorem nearestBranch_asAncestors (scopes : List Location) :
    nearestBranch (asAncestors scopes) = scopes.head? := by
  cases scopes <;> rfl

theorem nearestBranch_append (around outer : List Item) :
    nearestBranch (around ++ outer) = (nearestBranch around).or (nearestBranch outer) :=
  List.findSome?_append

theorem nearestBranch_isSome_iff (around : List Item) :
    (nearestBranch around).isSome ↔ ∃ branch, .branch branch ∈ around := by
  unfold nearestBranch
  rw [List.findSome?_isSome_iff]
  constructor
  · rintro ⟨item, hmem, hlocation⟩
    cases item with
    | branch branch => exact ⟨branch, hmem⟩
    | node node => simp at hlocation
  · rintro ⟨branch, hmem⟩
    exact ⟨.branch branch, hmem, by simp⟩

namespace Occurrence

/-- What must not stand inside a branch: a constant, or an at-rule with the name `external`. -/
def finding? (occurrence : Occurrence) : Option Finding :=
  match occurrence.node with
  | .definition .. => some .definition
  | .atRule name .. => if name = "external" then some .external else none
  | _ => none

/-- The diagnostic for a thing that must not stand where it does, if it is one. -/
def diagnostic? (mode : Mode) (occurrence : Occurrence) : Option Diagnostic := do
  let finding ← occurrence.finding?
  let enclosing ← nearestBranch occurrence.around
  return {
    code := match finding with
      | .definition => "R001"
      | .external => "R002"
    phase := .validate
    severity := match mode with
      | .strict => .error
      | .lenient => .warning
    message := finding.wording mode
    location := occurrence.node.location
    enclosing := some enclosing }

theorem diagnostic?_isSome_iff (mode : Mode) (occurrence : Occurrence) :
    (occurrence.diagnostic? mode).isSome ↔
      occurrence.finding?.isSome ∧ ∃ branch, .branch branch ∈ occurrence.around := by
  rw [← nearestBranch_isSome_iff]
  unfold diagnostic?
  cases occurrence.finding? with
  | none => simp
  | some finding => cases nearestBranch occurrence.around <;> simp

end Occurrence

def diagnosticsOf (mode : Mode) (occurrences : List Occurrence) : List Diagnostic :=
  occurrences.filterMap fun occurrence => occurrence.diagnostic? mode

@[simp] theorem diagnosticsOf_nil (mode : Mode) : diagnosticsOf mode [] = [] := rfl

theorem diagnosticsOf_cons (mode : Mode) (occurrence : Occurrence) (rest : List Occurrence) :
    diagnosticsOf mode (occurrence :: rest) =
      (occurrence.diagnostic? mode).toList ++ diagnosticsOf mode rest := by
  unfold diagnosticsOf
  rw [List.filterMap_cons]
  cases occurrence.diagnostic? mode <;> rfl

theorem diagnosticsOf_append (mode : Mode) (first rest : List Occurrence) :
    diagnosticsOf mode (first ++ rest) = diagnosticsOf mode first ++ diagnosticsOf mode rest :=
  List.filterMap_append

/-! ## Reports -/

namespace Validator

variable {S : Type} [Sink S]

/-- The validator after some more reports to its sink. -/
def reportAll (validator : Validator S) (diagnostics : List Diagnostic) : Validator S :=
  { validator with sink := diagnostics.foldl Sink.report validator.sink }

@[simp] theorem reportAll_scopes (validator : Validator S) (diagnostics : List Diagnostic) :
    (validator.reportAll diagnostics).scopes = validator.scopes := rfl

theorem reportAll_append (validator : Validator S) (first rest : List Diagnostic) :
    validator.reportAll (first ++ rest) = (validator.reportAll first).reportAll rest := by
  unfold reportAll
  simp only [List.foldl_append]

theorem message_eq_wording (finding : Finding) (mode : Mode) :
    finding.message mode = finding.wording mode := by
  cases finding <;> cases mode <;> rfl

theorem diagnostic_eq (mode : Mode) {occurrence : Occurrence} {finding : Finding}
    {location enclosing : Location} (hfinding : occurrence.finding? = some finding)
    (hlocation : occurrence.node.location = some location)
    (henclosing : nearestBranch occurrence.around = some enclosing) :
    occurrence.diagnostic? mode = some (diagnostic mode finding location enclosing) := by
  unfold Occurrence.diagnostic?
  simp only [hfinding, henclosing, hlocation, ← message_eq_wording]
  cases mode <;> cases finding <;> rfl

theorem diagnostic_none (mode : Mode) {occurrence : Occurrence}
    (h : occurrence.finding? = none ∨ nearestBranch occurrence.around = none) :
    occurrence.diagnostic? mode = none := by
  unfold Occurrence.diagnostic?
  rcases h with h | h
  · simp [h]
  · cases hf : occurrence.finding? <;> simp [h]

/-- A report says what the ancestors say, if the innermost open branch is the nearest of them. -/
theorem report_eq (validator : Validator S) {occurrence : Occurrence} {finding : Finding}
    {location : Location} (hfinding : occurrence.finding? = some finding)
    (hlocation : occurrence.node.location = some location)
    (hscope : validator.scopes.head? = nearestBranch occurrence.around) :
    validator.report finding location =
      validator.reportAll (occurrence.diagnostic? validator.mode).toList := by
  unfold report
  split
  · rename_i hs
    rw [hs] at hscope
    rw [diagnostic_none _ (.inr hscope.symm)]
    rfl
  · rename_i innermost outer hs
    rw [hs] at hscope
    rw [diagnostic_eq _ hfinding hlocation hscope.symm]
    rfl

theorem enter_node (validator : Validator S) (node : Node) (around : List Item)
    (hscope : validator.scopes.head? = nearestBranch around) :
    (validator.enter (.node node)).2 =
      validator.reportAll ((⟨node, around⟩ : Occurrence).diagnostic? validator.mode).toList := by
  cases node with
  | definition name values location => exact report_eq validator rfl rfl hscope
  | atRule name params block location =>
    simp only [enter]
    split
    · rename_i hname
      exact report_eq validator (if_pos hname) rfl hscope
    · rename_i hname
      have hnone : (⟨.atRule name params block location, around⟩ : Occurrence).finding? = none :=
        if_neg hname
      rw [diagnostic_none _ (.inl hnone)]
      rfl
  | _ =>
    rw [diagnostic_none _ (.inl rfl)]
    rfl

end Validator

end StyleScope
