import StyleScope.Proofs.Reports
import StyleScope.Proofs.Scope.Moments
import StyleScope.Proofs.Scope.Sessions
import StyleScope.Proofs.Walk.Occurrence

/-!
# Validators that are used again

A run knows nothing of what was done with the validator before it. So it reports what its sheet
gives alone, and the runs of a session report together what all their sheets give as one.
-/

namespace StyleScope

/-! ## Sheets as one -/

/-- One sheet with the nodes of many. -/
def Sheet.join (name : String) (sheets : List Sheet) : Sheet := ⟨name, sheets.flatMap Sheet.nodes⟩

theorem diagnosticsOf_join (mode : Mode) (name : String) (sheets : List Sheet) :
    diagnosticsOf mode (Sheet.join name sheets).occurrences =
      sheets.flatMap fun sheet => diagnosticsOf mode sheet.occurrences := by
  induction sheets with
  | nil => rfl
  | cons sheet sheets ih =>
    have hjoin : (Sheet.join name (sheet :: sheets)).occurrences =
        sheet.occurrences ++ (Sheet.join name sheets).occurrences :=
      nodesOccurrences_append [] sheet.nodes (sheets.flatMap Sheet.nodes)
    rw [hjoin, diagnosticsOf_append, ih, List.flatMap_cons]

namespace Validator

open ListedSink (items)

/-! ## One step -/

variable {S : Type}

theorem sink_of_leave {validator after : Validator S} {item : Item}
    (h : validator.leave item = .ok after) :
    after.mode = validator.mode ∧ after.sink = validator.sink := by
  unfold Validator.leave at h
  split at h
  · cases h
    exact ⟨rfl, rfl⟩
  · split at h
    · cases h
    · split at h
      · cases h
        exact ⟨rfl, rfl⟩
      · cases h

variable [ListedSink S]

namespace Step

theorem sink_of_perform {step : Step} {validator after : Validator S} {answer : Option Action}
    (h : step.perform validator = .ok (answer, after)) :
    after.mode = validator.mode ∧
      ∃ added : List Diagnostic, after.sink = added.foldl Sink.report validator.sink := by
  match step with
  | .run sheet =>
    rw [perform_run] at h
    cases h
    exact ⟨rfl, _, rfl⟩
  | .walk nodes =>
    rw [perform_walk nodes validator (nearestBranch_asAncestors _).symm] at h
    cases h
    exact ⟨rfl, _, rfl⟩
  | .value v =>
    cases h
    exact ⟨rfl, [], rfl⟩
  | .enter (.branch branch) =>
    cases h
    exact ⟨rfl, [], rfl⟩
  | .enter (.node node) =>
    have hafter : (validator.enter (.node node)).2 = after := by
      cases h
      rfl
    rw [enter_node validator node _ (nearestBranch_asAncestors _).symm] at hafter
    subst hafter
    exact ⟨rfl, _, rfl⟩
  | .leave item =>
    rw [perform_leave] at h
    cases hleave : validator.leave item with
    | error violation => simp [hleave, Except.map] at h
    | ok left =>
      simp only [hleave, Except.map, Except.ok.injEq, Prod.mk.injEq] at h
      rw [← h.2]
      obtain ⟨hmode, hsink⟩ := sink_of_leave hleave
      exact ⟨hmode, [], hsink⟩

theorem exists_leave {step : Step} {validator : Validator S} {violation : Violation}
    (h : step.perform validator = .error violation) : ∃ item, step = .leave item := by
  have hbreach := perform_eq_error_iff.mp h
  cases step with
  | leave item => exact ⟨item, rfl⟩
  | _ => cases hbreach

end Step

/-! ## What is done in a session -/

/-- A step that was done, with the validator before and after it. -/
structure Deed (S : Type) where
  step : Step
  before : Validator S
  after : Validator S

/-- The steps that are done from a state on, up to the first violation. -/
def deeds : List Step → Validator S → List (Deed S)
  | [], _ => []
  | step :: steps, before =>
    match step.perform before with
    | .error _ => []
    | .ok (_, after) => ⟨step, before, after⟩ :: deeds steps after

namespace Deed

/-- What the sink holds after a step and did not hold before. -/
def reported (deed : Deed S) : List Diagnostic :=
  (items deed.after.sink).drop (items deed.before.sink).length

/-- The sheet of a run with what the run reported. -/
def run? (deed : Deed S) : Option (Sheet × List Diagnostic) :=
  match deed.step with
  | .run sheet => some (sheet, deed.reported)
  | _ => none

end Deed

/-- The runs of a session, each with what it reported. -/
def runs (steps : List Step) (validator : Validator S) : List (Sheet × List Diagnostic) :=
  (deeds steps validator).filterMap Deed.run?

/-! ## Sessions -/

theorem performAll_cons_of_ok {step : Step} {validator between : Validator S}
    {answer : Option Action} (h : step.perform validator = .ok (answer, between))
    (steps : List Step) :
    Step.performAll (step :: steps) validator =
      (Step.performAll steps between).map fun (answers, after) => (answer :: answers, after) := by
  rw [← List.singleton_append, Step.performAll_append, Step.performAll_singleton, h]
  rfl

theorem performAll_cons_of_error {step : Step} {validator : Validator S} {violation : Violation}
    (h : step.perform validator = .error violation) (steps : List Step) :
    Step.performAll (step :: steps) validator = .error violation := by
  rw [← List.singleton_append, Step.performAll_append, Step.performAll_singleton, h]
  rfl

theorem deeds_eq (steps : List Step) (validator : Validator S) :
    match Step.performAll steps validator with
    | .ok (_, after) => (deeds steps validator).map Deed.step = steps ∧
        ((deeds steps validator).map Deed.after).getLastD validator = after
    | .error _ => ∃ item later,
        steps = (deeds steps validator).map Deed.step ++ .leave item :: later := by
  induction steps generalizing validator with
  | nil => exact ⟨rfl, rfl⟩
  | cons step steps ih =>
    unfold deeds
    rcases hperform : step.perform validator with violation | ⟨answer, between⟩
    · rw [performAll_cons_of_error hperform]
      obtain ⟨item, rfl⟩ := Step.exists_leave hperform
      exact ⟨item, steps, rfl⟩
    · rw [performAll_cons_of_ok hperform]
      have hrest := ih between
      rcases hsteps : Step.performAll steps between with violation | ⟨answers, after⟩
      · rw [hsteps] at hrest
        obtain ⟨item, later, heq⟩ := hrest
        exact ⟨item, later, congrArg (step :: ·) heq⟩
      · rw [hsteps] at hrest
        obtain ⟨heq, hlast⟩ := hrest
        refine ⟨congrArg (step :: ·) heq, ?_⟩
        rw [List.map_cons, List.getLastD_cons]
        exact hlast

theorem mem_deeds {steps : List Step} {validator : Validator S} {deed : Deed S}
    (h : deed ∈ deeds steps validator) :
    (∃ answer, deed.step.perform deed.before = .ok (answer, deed.after)) ∧
      deed.before.mode = validator.mode ∧ items validator.sink <+: items deed.before.sink := by
  induction steps generalizing validator with
  | nil => cases h
  | cons step steps ih =>
    unfold deeds at h
    rcases hperform : step.perform validator with violation | ⟨answer, after⟩
    · rw [hperform] at h
      cases h
    · rw [hperform] at h
      rcases List.mem_cons.mp h with rfl | h
      · exact ⟨⟨answer, hperform⟩, rfl, List.prefix_rfl⟩
      · obtain ⟨hmode, added, hsink⟩ := Step.sink_of_perform hperform
        obtain ⟨hdeed, hmode', hstarts⟩ := ih h
        rw [hsink, items_foldl_report] at hstarts
        exact ⟨hdeed, hmode'.trans hmode, (List.prefix_append ..).trans hstarts⟩

theorem Deed.items_after {deed : Deed S} {added : List Diagnostic}
    (h : deed.after.sink = added.foldl Sink.report deed.before.sink) :
    items deed.after.sink = items deed.before.sink ++ deed.reported ∧ deed.reported = added := by
  have hreported : deed.reported = added := by
    rw [Deed.reported, h, items_foldl_report, List.drop_left]
  refine ⟨?_, hreported⟩
  rw [hreported, h, items_foldl_report]

/-- A run reports what its sheet alone calls for. -/
theorem reported_of_run {steps : List Step} {validator : Validator S} {deed : Deed S}
    (h : deed ∈ deeds steps validator) {sheet : Sheet} (hrun : deed.step = .run sheet) :
    deed.reported = diagnosticsOf validator.mode sheet.occurrences ∧ deed.after.depth = 0 := by
  obtain ⟨⟨answer, hperform⟩, hmode, -⟩ := mem_deeds h
  rw [hrun, Step.perform_run, hmode] at hperform
  have hafter : deed.after = _ := (congrArg Prod.snd (Except.ok.inj hperform)).symm
  refine ⟨(Deed.items_after ?_).2, ?_⟩
  · rw [hafter]
    rfl
  · rw [hafter]
    rfl

theorem run?_eq_some {steps : List Step} {validator : Validator S} {deed : Deed S}
    (h : deed ∈ deeds steps validator) {run : Sheet × List Diagnostic}
    (hrun : deed.run? = some run) :
    run.2 = diagnosticsOf validator.mode run.1.occurrences := by
  unfold Deed.run? at hrun
  split at hrun
  · rename_i sheet hstep
    cases hrun
    exact (reported_of_run h hstep).1
  · cases hrun

/-- A run reports what its sheet gives alone, whatever was done before, and all runs together report
what one sheet with all their nodes gives. -/
theorem runs_alike (validator : Validator S) (steps : List Step) :
    (match Step.performAll steps validator with
      | .ok (_, after) => (deeds steps validator).map Deed.step = steps ∧
          ((deeds steps validator).map Deed.after).getLastD validator = after
      | .error _ => ∃ item later,
          steps = (deeds steps validator).map Deed.step ++ .leave item :: later) ∧
    (∀ deed ∈ deeds steps validator,
      items validator.sink <+: items deed.before.sink ∧
        items deed.after.sink = items deed.before.sink ++ deed.reported) ∧
    (∀ deed ∈ deeds steps validator, ∀ sheet, deed.step = .run sheet →
      ∃ alone, sheet.validate validator.mode = .ok alone ∧ deed.reported = alone.toList ∧
        deed.after.depth = 0) ∧
    ∀ name, ∃ joined,
      (Sheet.join name ((runs steps validator).map Prod.fst)).validate validator.mode = .ok joined ∧
        joined.toList = (runs steps validator).flatMap Prod.snd := by
  refine ⟨deeds_eq steps validator, ?_, ?_, ?_⟩
  · intro deed hdeed
    obtain ⟨⟨answer, hperform⟩, -, hstarts⟩ := mem_deeds hdeed
    obtain ⟨-, added, hsink⟩ := Step.sink_of_perform hperform
    exact ⟨hstarts, (Deed.items_after hsink).1⟩
  · intro deed hdeed sheet hrun
    obtain ⟨alone, hvalidate, hlist⟩ := exists_validate sheet validator.mode
    obtain ⟨hreported, hdepth⟩ := reported_of_run hdeed hrun
    exact ⟨alone, hvalidate, hreported.trans hlist.symm, hdepth⟩
  · intro name
    obtain ⟨joined, hvalidate, hlist⟩ :=
      exists_validate (Sheet.join name ((runs steps validator).map Prod.fst)) validator.mode
    refine ⟨joined, hvalidate, ?_⟩
    rw [hlist, diagnosticsOf_join, List.flatMap_map]
    apply List.flatMap_congr
    intro run hmem
    obtain ⟨deed, hdeed, hrun⟩ := List.mem_filterMap.mp hmem
    exact (run?_eq_some hdeed hrun).symm

end Validator

end StyleScope
