import StyleScope.Proofs.Diagnostic.Views
import StyleScope.Proofs.Scope.Modes

/-!
# Validators that differ in where they report

A validator never looks at its sink. If a map from one kind of sink to another keeps reports, it
takes a session on the one to the same session on the other. A plain list and a collection of
diagnostics are related by such a map.
-/

namespace StyleScope

namespace Validator

/-- The validator with its sink turned into one of another kind. -/
def withSink {S T : Type} (f : S → T) (validator : Validator S) : Validator T :=
  ⟨validator.mode, validator.scopes, f validator.sink⟩

/-! ## Steps -/

section Steps

variable {S T : Type} [Sink S] [Sink T] {f : S → T}

/-- To report and then to turn the sink into one of another kind is to turn it and then to report. -/
def KeepsReports (f : S → T) : Prop :=
  ∀ sink diagnostic, f (Sink.report sink diagnostic) = Sink.report (f sink) diagnostic

theorem withSink_reportAll (hf : KeepsReports f) (validator : Validator S)
    (diagnostics : List Diagnostic) :
    (validator.reportAll diagnostics).withSink f =
      (validator.withSink f).reportAll diagnostics := by
  unfold reportAll withSink
  rw [List.foldl_hom f fun sink diagnostic => (hf sink diagnostic).symm]

/-- A step does the same whatever it reports to. -/
theorem perform_withSink (hf : KeepsReports f) (step : Step) (validator : Validator S) :
    step.perform (validator.withSink f) =
      (step.perform validator).map fun (answer, after) => (answer, after.withSink f) := by
  cases hbreach : step.breach? validator.scopes with
  | some violation =>
    have hplain : step.perform validator = .error violation := Step.perform_eq_error_iff.mpr hbreach
    have hother : step.perform (validator.withSink f) = .error violation :=
      Step.perform_eq_error_iff.mpr hbreach
    rw [hplain, hother]
    rfl
  | none =>
    have hother : step.perform (validator.withSink f) = _ := Step.perform_eq hbreach
    rw [Step.perform_eq hbreach, hother]
    simp only [Except.map, withSink_reportAll hf]
    rfl

end Steps

/-! ## Sessions -/

section Sessions

variable {S T : Type} [ListedSink S] [ListedSink T] {f : S → T}

theorem performAll_withSink (hf : KeepsReports f) (steps : List Step) (validator : Validator S) :
    Step.performAll steps (validator.withSink f) =
      (Step.performAll steps validator).map fun (answers, after) => (answers, after.withSink f) := by
  induction steps generalizing validator with
  | nil => rfl
  | cons step steps ih =>
    have hother := perform_withSink hf step validator
    rcases hperform : step.perform validator with violation | ⟨answer, between⟩
    · rw [hperform] at hother
      rw [performAll_cons_of_error hperform, performAll_cons_of_error hother]
      rfl
    · rw [hperform] at hother
      rw [performAll_cons_of_ok hperform, performAll_cons_of_ok hother, ih]
      cases Step.performAll steps between <;> rfl

def Deed.withSink (f : S → T) (deed : Deed S) : Deed T :=
  ⟨deed.step, deed.before.withSink f, deed.after.withSink f⟩

theorem deeds_withSink (hf : KeepsReports f) (steps : List Step) (validator : Validator S) :
    deeds steps (validator.withSink f) = (deeds steps validator).map (Deed.withSink f) := by
  induction steps generalizing validator with
  | nil => rfl
  | cons step steps ih =>
    unfold deeds
    rw [perform_withSink hf]
    rcases step.perform validator with violation | ⟨answer, between⟩
    · rfl
    · exact congrArg _ (ih between)

end Sessions

/-! ## A plain list and a collection -/

/-- A step done by a validator that reports to a plain list and by one that reports to a
collection. -/
structure Deed.Same (plain : Deed (Array Diagnostic)) (collected : Deed Diagnostics) : Prop where
  step : plain.step = collected.step
  answer : ∃ answer, plain.step.perform plain.before = .ok (answer, plain.after) ∧
    collected.step.perform collected.before = .ok (answer, collected.after)
  depth : plain.after.depth = collected.after.depth
  reported : plain.reported = collected.reported
  items : plain.after.sink = collected.after.sink.items
  toList : plain.after.sink.toList = collected.after.sink.toList

/-- Two sessions end the same: both go well, with the same answers, as many branches open and the
same diagnostics, or both stop with the same violation. -/
def EndSame : Except Violation (List (Option Action) × Validator (Array Diagnostic)) →
    Except Violation (List (Option Action) × Validator Diagnostics) → Prop
  | .ok (answers, after), .ok (answers', after') =>
    answers = answers' ∧ after.depth = after'.depth ∧ after.sink = after'.sink.items ∧
      after.sink.toList = after'.sink.toList
  | .error violation, .error violation' => violation = violation'
  | _, _ => False

theorem keepsReports_mk : KeepsReports Diagnostics.mk := fun _ _ => rfl

theorem same_withSink {steps : List Step} {validator : Validator (Array Diagnostic)}
    {deed : Deed (Array Diagnostic)} (h : deed ∈ deeds steps validator) :
    deed.Same (deed.withSink Diagnostics.mk) := by
  obtain ⟨⟨answer, hperform⟩, -, -⟩ := mem_deeds h
  refine ⟨rfl, ⟨answer, hperform, ?_⟩, rfl, rfl, rfl, rfl⟩
  have hother := perform_withSink keepsReports_mk deed.step deed.before
  rw [hperform] at hother
  exact hother

/-- A validator does the same whether it reports to a plain list or to a collection, and all that
the collection says of itself agrees with the reports. -/
theorem sinks_interchangeable :
    (∀ (mode : Mode) (opened : List Location) (held : Array Diagnostic) (steps : List Step),
      EndSame (Step.performAll steps ⟨mode, opened, held⟩)
          (Step.performAll steps ⟨mode, opened, ⟨held⟩⟩) ∧
        List.Forall₂ Deed.Same (deeds steps ⟨mode, opened, held⟩)
          (deeds steps ⟨mode, opened, ⟨held⟩⟩)) ∧
    ∀ reports : List Diagnostic,
      List.Forall₂ Diagnostics.Consistent (reports.scanl Diagnostics.report .empty)
        reports.inits := by
  refine ⟨?_, ?_⟩
  · intro mode opened held steps
    have hsession := performAll_withSink keepsReports_mk steps
      ⟨mode, opened, held⟩
    have hdeeds := deeds_withSink keepsReports_mk steps
      ⟨mode, opened, held⟩
    unfold withSink at hsession hdeeds
    rw [hsession, hdeeds]
    refine ⟨?_, ?_⟩
    · rcases Step.performAll steps ⟨mode, opened, held⟩ with violation | ⟨answers, after⟩
      · exact rfl
      · exact ⟨rfl, rfl, rfl, rfl⟩
    · rw [List.forall₂_map_right_iff, List.forall₂_same]
      exact fun deed hdeed => same_withSink hdeed
  · intro reports
    have hstates := Diagnostics.consistent_scanl .empty reports
    simp only [Diagnostics.toList_empty, List.nil_append, List.map_id'] at hstates
    exact hstates

end Validator

end StyleScope
