import StyleScope.Proofs.Scope.Walks
import StyleScope.Scope.Session

/-!
# Which branches are open in a session

Entering and leaving a branch by single steps match like brackets. A session breaches this only with
a step that leaves a branch which is not the innermost one still open; walks and runs never do.
-/

namespace StyleScope

namespace Validator

variable {S : Type} [Sink S]

/-! ## Brackets -/

namespace Step

/-- The places of the branches that steps have entered and not left since the last run, innermost
first. The steps come latest first, and `left` more branches have been left after them: what is
entered is matched by what is left later, so no stack is kept. -/
def unmatched (left : Nat) : (latestFirst : List Step) → List Location
  | [] => []
  | .run _ :: _ => []
  | .leave (.branch _) :: earlier => unmatched (left + 1) earlier
  | .enter (.branch branch) :: earlier =>
    match left with
    | 0 => branch.location :: unmatched 0 earlier
    | left + 1 => unmatched left earlier
  | _ :: earlier => unmatched left earlier

/-- The places of the branches that are still open after some steps, innermost first. -/
def stillOpen (steps : List Step) : List Location := unmatched 0 steps.reverse

/-- What is wrong with a step if these branches are open: it leaves one when there is none, or when
the innermost one is at another place. -/
def breach? (opened : List Location) : Step → Option Violation
  | .leave (.branch branch) =>
    match opened with
    | [] => some (.noneOpen branch.location)
    | innermost :: _ =>
      if innermost = branch.location then none else some (.otherOpen branch.location innermost)
  | _ => none

/-- What is open after a step that is no breach. -/
def opens (opened : List Location) : Step → List Location
  | .run _ => []
  | .enter (.branch branch) => branch.location :: opened
  | .leave (.branch _) => opened.tail
  | _ => opened

theorem unmatched_eq_drop (left : Nat) (latestFirst : List Step) :
    unmatched left latestFirst = (unmatched 0 latestFirst).drop left := by
  induction latestFirst generalizing left with
  | nil => simp [unmatched]
  | cons step earlier ih =>
    match step with
    | .run _ => simp [unmatched]
    | .leave (.branch _) =>
      rw [unmatched, unmatched, ih (left + 1), ih 1, List.drop_drop, Nat.add_comm]
    | .enter (.branch _) =>
      -- The branch entered here is one of those left later, if there are any.
      rcases left with _ | left
      · simp
      · rw [unmatched, unmatched, ih left]
        rfl
    | .walk _ | .value _ | .enter (.node _) | .leave (.node _) => exact ih left

theorem stillOpen_snoc (steps : List Step) (step : Step) :
    stillOpen (steps ++ [step]) = step.opens (stillOpen steps) := by
  unfold stillOpen
  rw [List.reverse_append, List.reverse_singleton, List.singleton_append]
  match step with
  | .leave (.branch _) =>
    rw [unmatched, unmatched_eq_drop, List.drop_one]
    rfl
  | .enter (.branch _) | .run _ | .walk _ | .value _ | .enter (.node _)
  | .leave (.node _) => rfl

/-! ## One step -/

theorem perform_leave (item : Item) (validator : Validator S) :
    perform (.leave item) validator = (validator.leave item).map fun after => (none, after) := by
  simp only [perform, visitor, bind, StateT.bind, Except.bind]
  cases validator.leave item <;> rfl

theorem perform_run (sheet : Sheet) (validator : Validator S) :
    perform (.run sheet) validator =
      .ok (none, ({ validator with scopes := [] } : Validator S).reportAll
        (diagnosticsOf validator.mode sheet.occurrences)) := by
  simp only [perform, bind, StateT.bind, Except.bind, run_eq]
  rfl

theorem perform_walk (nodes : List Node) (validator : Validator S) {around : List Item}
    (hscope : validator.scopes.head? = nearestBranch around) :
    perform (.walk nodes) validator =
      .ok (none, validator.reportAll
        (diagnosticsOf validator.mode (nodesOccurrences around nodes))) := by
  simp only [perform, Validator.walk, bind, StateT.bind, Except.bind,
    walkNodes_eq validator around nodes hscope]
  rfl

/-- A step either breaches the brackets, as `breach?` says, or opens what `opens` says. -/
theorem perform_spec (step : Step) (validator : Validator S) :
    match step.breach? validator.scopes with
    | some violation => step.perform validator = .error violation
    | none => ∃ answer after, step.perform validator = .ok (answer, after) ∧
        after.scopes = step.opens validator.scopes := by
  match step with
  | .run sheet => exact ⟨none, _, perform_run sheet validator, rfl⟩
  | .walk nodes =>
    exact ⟨none, _, perform_walk nodes validator (nearestBranch_asAncestors _).symm, rfl⟩
  | .value v => exact ⟨none, validator, rfl, rfl⟩
  | .enter (.node node) =>
    refine ⟨_, (validator.enter (.node node)).2, rfl, ?_⟩
    rw [enter_node validator node _ (nearestBranch_asAncestors validator.scopes).symm]
    rfl
  | .enter (.branch branch) =>
    exact ⟨some .descend, { validator with scopes := branch.location :: validator.scopes }, rfl, rfl⟩
  | .leave (.node node) => exact ⟨none, validator, rfl, rfl⟩
  | .leave (.branch branch) =>
    rw [perform_leave]
    unfold Validator.leave
    rcases hscopes : validator.scopes with _ | ⟨innermost, outer⟩
    · rfl
    · by_cases hsame : innermost = branch.location
      · simp only [breach?, hsame, ↓reduceIte]
        exact ⟨none, { validator with scopes := outer }, rfl, rfl⟩
      · simp only [breach?, hsame, ↓reduceIte]
        rfl

theorem perform_eq_error_iff {step : Step} {validator : Validator S} {violation : Violation} :
    step.perform validator = .error violation ↔
      step.breach? validator.scopes = some violation := by
  have hspec := perform_spec step validator
  rcases hbreach : step.breach? validator.scopes with _ | breach
  · rw [hbreach] at hspec
    obtain ⟨answer, after, hperform, -⟩ := hspec
    simp [hperform]
  · rw [hbreach] at hspec
    rw [hspec, Except.error.injEq, Option.some.injEq]

theorem scopes_of_perform {step : Step} {validator after : Validator S} {answer : Option Action}
    (h : step.perform validator = .ok (answer, after)) :
    after.scopes = step.opens validator.scopes := by
  have hspec := perform_spec step validator
  rcases hbreach : step.breach? validator.scopes with _ | breach
  · rw [hbreach] at hspec
    obtain ⟨answer', after', hperform, hscopes⟩ := hspec
    rw [h, Except.ok.injEq, Prod.mk.injEq] at hperform
    rw [hperform.2, hscopes]
  · rw [hbreach] at hspec
    simp [hspec] at h

/-! ## Many steps -/

theorem performAll_append (first rest : List Step) (validator : Validator S) :
    performAll (first ++ rest) validator =
      (performAll first validator).bind fun (answers, between) =>
        (performAll rest between).map fun (answers', after) => (answers ++ answers', after) := by
  simp only [performAll, List.mapM_append, bind, StateT.bind]
  cases List.mapM perform first validator with
  | error violation => rfl
  | ok result =>
    simp only [Except.bind]
    cases List.mapM perform rest result.2 <;> rfl

theorem performAll_singleton (step : Step) (validator : Validator S) :
    performAll [step] validator =
      (step.perform validator).map fun (answer, after) => ([answer], after) := by
  simp only [performAll, List.mapM_cons, List.mapM_nil, bind, StateT.bind, Except.bind]
  cases step.perform validator <;> rfl

theorem performAll_snoc_of_ok {steps : List Step} {validator between : Validator S}
    {answers : List (Option Action)} (h : performAll steps validator = .ok (answers, between))
    (step : Step) :
    performAll (steps ++ [step]) validator =
      (step.perform between).map fun (answer, after) => (answers ++ [answer], after) := by
  rw [performAll_append, h]
  simp only [Except.bind, performAll_singleton]
  cases step.perform between <;> rfl

theorem performAll_append_of_error {first : List Step} {validator : Validator S}
    {violation : Violation} (h : performAll first validator = .error violation)
    (rest : List Step) : performAll (first ++ rest) validator = .error violation := by
  rw [performAll_append, h]
  rfl

end Step

/-! ## Sessions -/

-- Induction on the last step: the brackets of a session are read from its end.
theorem scopes_eq_stillOpen {mode : Mode} {sink : S} {steps : List Step}
    {answers : List (Option Action)} {after : Validator S}
    (h : Step.performAll steps (.start mode sink) = .ok (answers, after)) :
    after.scopes = Step.stillOpen steps := by
  induction steps using List.reverseRecOn generalizing answers after with
  | nil =>
    cases h
    rfl
  | append_singleton steps step ih =>
    cases hsteps : Step.performAll steps (.start mode sink) with
    | error violation =>
      rw [Step.performAll_append_of_error hsteps] at h
      cases h
    | ok result =>
      obtain ⟨answers', between⟩ := result
      rw [Step.performAll_snoc_of_ok hsteps] at h
      cases hstep : step.perform between with
      | error violation => simp [hstep, Except.map] at h
      | ok result =>
        obtain ⟨answer, last⟩ := result
        simp only [hstep, Except.map, Except.ok.injEq, Prod.mk.injEq] at h
        rw [← h.2, Step.scopes_of_perform hstep, ih hsteps, Step.stillOpen_snoc]

theorem performAll_snoc_eq_error_iff {mode : Mode} {sink : S} {steps : List Step}
    {answers : List (Option Action)} {between : Validator S}
    (h : Step.performAll steps (.start mode sink) = .ok (answers, between)) {step : Step}
    {violation : Violation} :
    Step.performAll (steps ++ [step]) (.start mode sink) = .error violation ↔
      step.breach? (Step.stillOpen steps) = some violation := by
  rw [Step.performAll_snoc_of_ok h, ← scopes_eq_stillOpen h, ← Step.perform_eq_error_iff]
  cases step.perform between <;> simp [Except.map]

theorem exists_breach {mode : Mode} {sink : S} {steps : List Step} {violation : Violation}
    (h : Step.performAll steps (.start mode sink) = .error violation) :
    ∃ before step after, steps = before ++ step :: after ∧
      (∃ result, Step.performAll before (.start mode sink) = .ok result) ∧
      step.breach? (Step.stillOpen before) = some violation := by
  induction steps using List.reverseRecOn with
  | nil => cases h
  | append_singleton steps step ih =>
    cases hsteps : Step.performAll steps (.start mode sink) with
    | error earlier =>
      rw [Step.performAll_append_of_error hsteps, ← hsteps] at h
      obtain ⟨before, first, after, rfl, hgood, hbreach⟩ := ih h
      exact ⟨before, first, after ++ [step], by simp, hgood, hbreach⟩
    | ok result =>
      obtain ⟨answers, between⟩ := result
      exact ⟨steps, step, [], rfl, ⟨_, hsteps⟩, (performAll_snoc_eq_error_iff hsteps).mp h⟩

/-- A session fails exactly where a branch is left that is not the innermost one open. What is open
was entered and not left since the last run. -/
theorem session_follows_brackets (mode : Mode) (sink : S) (steps : List Step) :
    (∀ violation, Step.performAll steps (.start mode sink) = .error violation ↔
      ∃ before step after, steps = before ++ step :: after ∧
        (∃ result, Step.performAll before (.start mode sink) = .ok result) ∧
        step.breach? (Step.stillOpen before) = some violation) ∧
    (∀ answers after, Step.performAll steps (.start mode sink) = .ok (answers, after) →
      after.scopes = Step.stillOpen steps) ∧
    (∀ (validator : Validator S) (nodes : List Node), ∃ after,
      walk nodes validator = .ok ((), after) ∧ after.scopes = validator.scopes) ∧
    (∀ (validator : Validator S) (node : Node), ∃ after,
      visitor.walkNode node validator = .ok ((), after) ∧ after.scopes = validator.scopes) ∧
    ∀ (validator : Validator S) (sheet : Sheet), ∃ after,
      run sheet validator = .ok ((), after) ∧ after.scopes = [] := by
  refine ⟨?_, fun _ _ => scopes_eq_stillOpen, ?_, ?_, ?_⟩
  · intro violation
    constructor
    · exact exists_breach
    · rintro ⟨before, step, after, rfl, ⟨⟨answers, between⟩, hgood⟩, hbreach⟩
      have herror := (performAll_snoc_eq_error_iff hgood).mpr hbreach
      rw [List.append_cons]
      exact Step.performAll_append_of_error herror after
  · intro validator nodes
    obtain ⟨diagnostics, hwalk⟩ := walkNodes_ok validator nodes
    exact ⟨_, hwalk, reportAll_scopes ..⟩
  · intro validator node
    exact ⟨_, walkNode_eq validator _ node (nearestBranch_asAncestors _).symm, reportAll_scopes ..⟩
  · intro validator sheet
    obtain ⟨diagnostics, hrun⟩ := run_ok validator sheet
    exact ⟨_, hrun, reportAll_scopes ..⟩

end Validator

end StyleScope
