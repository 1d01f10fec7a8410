import StyleScope.Proofs.Scope.Reuse

/-!
# Two modes side by side

The mode decides how a finding is labelled and nothing else. A strict validator and a lenient one
that take the same steps answer alike, have the same branches open, and report on the same things.
-/

namespace StyleScope

/-! ## Labels -/

/-- A strict diagnostic and a lenient one on the same finding: just the severities and the messages
differ. -/
structure Diagnostic.Twins (strict lenient : Diagnostic) : Prop where
  code : strict.code = lenient.code
  phase : strict.phase = lenient.phase
  location : strict.location = lenient.location
  enclosing : strict.enclosing = lenient.enclosing
  labels : ∃ finding : Finding, strict.code = finding.code ∧
    strict.severity = .error ∧ strict.message = finding.wording .strict ∧
    lenient.severity = .warning ∧ lenient.message = finding.wording .lenient

namespace Occurrence

theorem diagnostic?_eq_none_iff (mode mode' : Mode) (occurrence : Occurrence) :
    occurrence.diagnostic? mode = none ↔ occurrence.diagnostic? mode' = none := by
  rw [← Option.isNone_iff_eq_none, ← Option.isNone_iff_eq_none, ← Option.not_isSome,
    ← Option.not_isSome, isSome_diagnostic?, isSome_diagnostic?]

theorem twins_of_diagnostic? {occurrence : Occurrence} {strict lenient : Diagnostic}
    (hstrict : occurrence.diagnostic? .strict = some strict)
    (hlenient : occurrence.diagnostic? .lenient = some lenient) : strict.Twins lenient := by
  unfold diagnostic? at hstrict hlenient
  simp only [Option.bind_eq_bind, Option.bind_eq_some_iff, Option.pure_def,
    Option.some.injEq] at hstrict hlenient
  obtain ⟨finding, hfinding, enclosing, henclosing, rfl⟩ := hstrict
  obtain ⟨finding', hfinding', enclosing', henclosing', rfl⟩ := hlenient
  rw [hfinding, Option.some.injEq] at hfinding'
  rw [henclosing, Option.some.injEq] at henclosing'
  subst hfinding' henclosing'
  refine ⟨rfl, rfl, rfl, rfl, finding, ?_, rfl, rfl, rfl, rfl⟩
  cases finding <;> rfl

end Occurrence

theorem twins_diagnosticsOf (occurrences : List Occurrence) :
    List.Forall₂ Diagnostic.Twins (diagnosticsOf .strict occurrences)
      (diagnosticsOf .lenient occurrences) := by
  induction occurrences with
  | nil => exact .nil
  | cons occurrence rest ih =>
    rw [diagnosticsOf_cons, diagnosticsOf_cons]
    cases hstrict : occurrence.diagnostic? .strict with
    | none =>
      rw [(occurrence.diagnostic?_eq_none_iff .strict .lenient).mp hstrict]
      exact ih
    | some strict =>
      cases hlenient : occurrence.diagnostic? .lenient with
      | none =>
        rw [(occurrence.diagnostic?_eq_none_iff .lenient .strict).mp hlenient] at hstrict
        cases hstrict
      | some lenient => exact .cons (Occurrence.twins_of_diagnostic? hstrict hlenient) ih

theorem labels_of_twins {strict lenient : List Diagnostic}
    (h : List.Forall₂ Diagnostic.Twins strict lenient) :
    strict.filter (·.severity = .warning) = [] ∧ lenient.filter (·.severity = .error) = [] ∧
      strict.any Diagnostic.isError = !lenient.isEmpty := by
  induction h with
  | nil => exact ⟨rfl, rfl, rfl⟩
  | cons htwins _ ih =>
    obtain ⟨finding, -, hstrict, -, hlenient, -⟩ := htwins.labels
    obtain ⟨hwarnings, herrors, -⟩ := ih
    refine ⟨?_, ?_, ?_⟩
    · rw [List.filter_cons_of_neg (by simp [hstrict]), hwarnings]
    · rw [List.filter_cons_of_neg (by simp [hlenient]), herrors]
    · simp [Diagnostic.isError, hstrict]

namespace Validator

open ListedSink (items)

/-! ## One step -/

namespace Step

/-- What a step answers: something only where an item is entered. -/
def answer : Step → Option Action
  | .enter item => some (answerTo item)
  | _ => none

/-- What a step reports if these branches are open, innermost first. -/
def reports (mode : Mode) (opened : List Location) : Step → List Diagnostic
  | .run sheet => diagnosticsOf mode sheet.occurrences
  | .walk nodes => diagnosticsOf mode (nodesOccurrences (asAncestors opened) nodes)
  | .enter (.node node) => diagnosticsOf mode [⟨node, asAncestors opened⟩]
  | _ => []

/-- A step that is no breach answers, opens and reports what it should and does nothing else. -/
theorem perform_eq {S : Type} [Sink S] {step : Step} {validator : Validator S}
    (h : step.breach? validator.scopes = none) :
    step.perform validator = .ok (step.answer,
      ({ validator with scopes := step.opens validator.scopes } : Validator S).reportAll
        (step.reports validator.mode validator.scopes)) := by
  match step with
  | .run sheet => exact perform_run sheet validator
  | .walk nodes => exact perform_walk nodes validator (nearestBranch_asAncestors _).symm
  | .value v => rfl
  | .enter (.branch branch) => rfl
  | .enter (.node node) =>
    have henter : (validator.enter (.node node)).2 = _ :=
      enter_node validator node _ (nearestBranch_asAncestors _).symm
    have hanswer : (validator.enter (.node node)).1 = answerTo (.node node) := by
      cases node <;> rfl
    rw [reports, diagnosticsOf_cons, diagnosticsOf_nil, List.append_nil]
    change Except.ok (some (validator.enter (.node node)).1, (validator.enter (.node node)).2) = _
    rw [henter, hanswer]
    rfl
  | .leave (.node node) => rfl
  | .leave (.branch branch) =>
    rw [perform_leave]
    unfold Validator.leave
    unfold breach? at h
    rcases hscopes : validator.scopes with _ | ⟨innermost, outer⟩
    · rw [hscopes] at h
      cases h
    · rw [hscopes] at h
      by_cases hsame : innermost = branch.location
      · simp only [hsame, ↓reduceIte]
        rfl
      · simp only [if_neg hsame] at h
        cases h

theorem twins_reports (opened : List Location) (step : Step) :
    List.Forall₂ Diagnostic.Twins (step.reports .strict opened) (step.reports .lenient opened) := by
  match step with
  | .run sheet => exact twins_diagnosticsOf _
  | .walk nodes => exact twins_diagnosticsOf _
  | .enter (.node node) => exact twins_diagnosticsOf _
  | .enter (.branch _) | .leave _ | .value _ => exact .nil

end Step

/-! ## Sessions -/

variable {S T : Type} [ListedSink S] [ListedSink T]

/-- A step that was done by a strict validator and by a lenient one. -/
structure Deed.Twins (strict : Deed S) (lenient : Deed T) : Prop where
  step : strict.step = lenient.step
  answer : ∃ answer, strict.step.perform strict.before = .ok (answer, strict.after) ∧
    lenient.step.perform lenient.before = .ok (answer, lenient.after)
  depth : strict.after.depth = lenient.after.depth
  reported : List.Forall₂ Diagnostic.Twins strict.reported lenient.reported

/-- Two sessions end alike: both go well, with the same answers, as many branches open and reports on
the same findings, or both stop with the same violation. -/
def EndAlike (sink : S) (sink' : T) : Except Violation (List (Option Action) × Validator S) →
    Except Violation (List (Option Action) × Validator T) → Prop
  | .ok (answers, after), .ok (answers', after') =>
    answers = answers' ∧ after.depth = after'.depth ∧
      ∃ reported reported', items after.sink = items sink ++ reported ∧
        items after'.sink = items sink' ++ reported' ∧
          List.Forall₂ Diagnostic.Twins reported reported'
  | .error violation, .error violation' => violation = violation'
  | _, _ => False

theorem EndAlike.cons {sink : S} {sink' : T} {first first' : List Diagnostic}
    (htwins : List.Forall₂ Diagnostic.Twins first first')
    {rest : Except Violation (List (Option Action) × Validator S)}
    {rest' : Except Violation (List (Option Action) × Validator T)}
    (h : EndAlike (first.foldl Sink.report sink) (first'.foldl Sink.report sink') rest rest')
    (answer : Option Action) :
    EndAlike sink sink' (rest.map fun (answers, after) => (answer :: answers, after))
      (rest'.map fun (answers, after) => (answer :: answers, after)) := by
  match rest, rest', h with
  | .error violation, .error violation', h => exact h
  | .ok (answers, after), .ok (answers', after'), h =>
    obtain ⟨rfl, hdepth, reported, reported', hsink, hsink', hrest⟩ := h
    rw [items_foldl_report, List.append_assoc] at hsink hsink'
    exact ⟨rfl, hdepth, first ++ reported, first' ++ reported', hsink, hsink',
      List.rel_append htwins hrest⟩

theorem reported_reportAll {step : Step} {before : Validator S} (opened : List Location)
    (diagnostics : List Diagnostic) :
    Deed.reported ⟨step, before, ({ before with scopes := opened } : Validator S).reportAll
      diagnostics⟩ = diagnostics :=
  (Deed.items_after rfl).2

-- What is open is the same on both sides, so the same step is the first breach on both.
theorem twins_of_session (steps : List Step) (opened : List Location) (sink : S) (sink' : T) :
    EndAlike sink sink' (Step.performAll steps ⟨.strict, opened, sink⟩)
        (Step.performAll steps ⟨.lenient, opened, sink'⟩) ∧
      List.Forall₂ Deed.Twins (deeds steps ⟨.strict, opened, sink⟩)
        (deeds steps ⟨.lenient, opened, sink'⟩) := by
  induction steps generalizing opened sink sink' with
  | nil =>
    refine ⟨⟨rfl, rfl, [], [], ?_, ?_, .nil⟩, .nil⟩
    · exact (List.append_nil _).symm
    · exact (List.append_nil _).symm
  | cons step steps ih =>
    unfold deeds
    cases hbreach : step.breach? opened with
    | some violation =>
      have hstrict : step.perform (⟨.strict, opened, sink⟩ : Validator S) = .error violation :=
        Step.perform_eq_error_iff.mpr hbreach
      have hlenient : step.perform (⟨.lenient, opened, sink'⟩ : Validator T) = .error violation :=
        Step.perform_eq_error_iff.mpr hbreach
      rw [performAll_cons_of_error hstrict, performAll_cons_of_error hlenient, hstrict, hlenient]
      exact ⟨rfl, .nil⟩
    | none =>
      have hstrict : step.perform (⟨.strict, opened, sink⟩ : Validator S) = _ :=
        Step.perform_eq hbreach
      have hlenient : step.perform (⟨.lenient, opened, sink'⟩ : Validator T) = _ :=
        Step.perform_eq hbreach
      have htwins := step.twins_reports opened
      obtain ⟨hend, hdeeds⟩ := ih (step.opens opened)
        ((step.reports .strict opened).foldl Sink.report sink)
        ((step.reports .lenient opened).foldl Sink.report sink')
      rw [performAll_cons_of_ok hstrict, performAll_cons_of_ok hlenient, hstrict, hlenient]
      refine ⟨hend.cons htwins step.answer, .cons ⟨rfl, ⟨_, hstrict, hlenient⟩, rfl, ?_⟩ hdeeds⟩
      rw [reported_reportAll, reported_reportAll]
      exact htwins

/-- A strict validator and a lenient one that take the same steps differ only in how they label what
they report, and they fail alike. -/
theorem modes_differ_in_labels (steps : List Step) (opened : List Location) (sink : S) (sink' : T) :
    EndAlike sink sink' (Step.performAll steps ⟨.strict, opened, sink⟩)
        (Step.performAll steps ⟨.lenient, opened, sink'⟩) ∧
    List.Forall₂ Deed.Twins (deeds steps ⟨.strict, opened, sink⟩)
        (deeds steps ⟨.lenient, opened, sink'⟩) ∧
    (∀ answers answers' (strict lenient : Validator Diagnostics),
      Step.performAll steps (.start .strict .empty) = .ok (answers, strict) →
      Step.performAll steps (.start .lenient .empty) = .ok (answers', lenient) →
        strict.sink.warnings = [] ∧ lenient.sink.errors = [] ∧
          strict.sink.hasErrors = !lenient.sink.isEmpty) ∧
    ∀ sheet : Sheet, ∃ strict lenient,
      sheet.validate .strict = .ok strict ∧ sheet.validate .lenient = .ok lenient ∧
        strict.warnings = [] ∧ lenient.errors = [] ∧ strict.hasErrors = !lenient.isEmpty := by
  have hlabels : ∀ {strict lenient : Diagnostics},
      List.Forall₂ Diagnostic.Twins strict.toList lenient.toList →
        strict.warnings = [] ∧ lenient.errors = [] ∧ strict.hasErrors = !lenient.isEmpty := by
    intro strict lenient htwins
    obtain ⟨hwarnings, herrors, hany⟩ := labels_of_twins htwins
    refine ⟨hwarnings, herrors, hany.trans ?_⟩
    simp [Diagnostics.isEmpty, Diagnostics.toList]
  obtain ⟨hend, hdeeds⟩ := twins_of_session steps opened sink sink'
  refine ⟨hend, hdeeds, ?_, ?_⟩
  · intro answers answers' strict lenient hstrict hlenient
    obtain ⟨hend, -⟩ := twins_of_session steps [] Diagnostics.empty Diagnostics.empty
    unfold start at hstrict hlenient
    rw [hstrict, hlenient] at hend
    obtain ⟨-, -, reported, reported', hsink, hsink', htwins⟩ := hend
    apply hlabels
    change strict.sink.toList = [] ++ reported at hsink
    change lenient.sink.toList = [] ++ reported' at hsink'
    rw [hsink, hsink']
    exact htwins
  · intro sheet
    obtain ⟨strict, hstrict, hlist⟩ := exists_validate sheet .strict
    obtain ⟨lenient, hlenient, hlist'⟩ := exists_validate sheet .lenient
    refine ⟨strict, lenient, hstrict, hlenient, hlabels ?_⟩
    rw [hlist, hlist']
    exact twins_diagnosticsOf sheet.occurrences

end Validator

end StyleScope
