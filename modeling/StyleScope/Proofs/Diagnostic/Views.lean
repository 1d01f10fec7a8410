import StyleScope.Proofs.Reports

/-!
# What a collection of diagnostics says about itself

The errors, the warnings, the size and the two tests are each computed on their own from what was
reported. They say the same after every report.
-/

namespace StyleScope

namespace Diagnostics

/-- Two lists merged into one: at each position the next error or the next warning, as the label
there says. -/
def interleave : List Severity → (errors warnings : List Diagnostic) → List Diagnostic
  | .error :: labels, error :: errors, warnings => error :: interleave labels errors warnings
  | .warning :: labels, errors, warning :: warnings =>
    warning :: interleave labels errors warnings
  | _, _, _ => []

/-- What is held are these reports, and all that is said about them agrees. -/
structure Consistent (held : Diagnostics) (reports : List Diagnostic) : Prop where
  toList : held.toList = reports
  errors : held.errors.Sublist reports
  warnings : held.warnings.Sublist reports
  once : ∀ diagnostic ∈ reports, Xor (diagnostic ∈ held.errors) (diagnostic ∈ held.warnings)
  merged : interleave (reports.map Diagnostic.severity) held.errors held.warnings = reports
  size : held.size = held.errors.length + held.warnings.length
  isEmpty : held.isEmpty = true ↔ held.size = 0
  hasErrors : held.hasErrors = true ↔ held.errors ≠ []
  status : held.errors ≠ [] ↔ (Report.ofDiagnostics held.toList).status.name = "errors"

/-! ## The two parts -/

theorem interleave_filters (reports : List Diagnostic) :
    interleave (reports.map Diagnostic.severity) (reports.filter (·.severity = .error))
      (reports.filter (·.severity = .warning)) = reports := by
  induction reports with
  | nil => rfl
  | cons diagnostic reports ih =>
    cases hseverity : diagnostic.severity with
    | error =>
      rw [List.map_cons, hseverity, List.filter_cons_of_pos (by simp [hseverity]),
        List.filter_cons_of_neg (by simp [hseverity]), interleave, ih]
    | warning =>
      rw [List.map_cons, hseverity, List.filter_cons_of_neg (by simp [hseverity]),
        List.filter_cons_of_pos (by simp [hseverity]), interleave, ih]

theorem length_filters (reports : List Diagnostic) :
    reports.length = (reports.filter (·.severity = .error)).length +
      (reports.filter (·.severity = .warning)).length := by
  have hother : ∀ diagnostic : Diagnostic,
      (!decide (diagnostic.severity = .error)) = decide (diagnostic.severity = .warning) := by
    intro diagnostic
    cases diagnostic.severity <;> rfl
  rw [List.length_eq_length_filter_add (·.severity = .error)]
  simp only [hother]

theorem mem_one_of_filters {diagnostic : Diagnostic} {reports : List Diagnostic}
    (h : diagnostic ∈ reports) :
    Xor (diagnostic ∈ reports.filter (·.severity = .error))
      (diagnostic ∈ reports.filter (·.severity = .warning)) := by
  rw [List.mem_filter, List.mem_filter]
  cases hseverity : diagnostic.severity with
  | error => exact .inl ⟨⟨h, by simp⟩, by simp⟩
  | warning => exact .inr ⟨⟨h, by simp⟩, by simp⟩

/-! ## The tests -/

theorem hasErrors_iff (held : Diagnostics) : held.hasErrors = true ↔ held.errors ≠ [] := by
  unfold hasErrors errors
  rw [List.any_eq_true, Ne, List.filter_eq_nil_iff]
  simp [Diagnostic.isError]

theorem status_name_iff (held : Diagnostics) :
    (Report.ofDiagnostics held.toList).status.name = "errors" ↔ held.hasErrors = true := by
  unfold Report.ofDiagnostics hasErrors
  cases held.toList.any Diagnostic.isError <;> simp [Report.Status.name]

theorem consistent_toList (held : Diagnostics) : held.Consistent held.toList where
  toList := rfl
  errors := List.filter_sublist
  warnings := List.filter_sublist
  once _ h := mem_one_of_filters h
  merged := interleave_filters held.toList
  size := length_filters held.toList
  isEmpty := by simp [isEmpty, size]
  hasErrors := held.hasErrors_iff
  status := by rw [status_name_iff, hasErrors_iff]

/-! ## Report after report -/

theorem consistent_scanl (held : Diagnostics) (reports : List Diagnostic) :
    List.Forall₂ Consistent (reports.scanl report held)
      (reports.inits.map (held.toList ++ ·)) := by
  induction reports generalizing held with
  | nil =>
    have hheld := held.consistent_toList
    rw [← List.append_nil held.toList] at hheld
    exact .cons hheld .nil
  | cons diagnostic reports ih =>
    rw [List.scanl_cons, List.inits_cons, List.map_cons, List.append_nil, List.map_map]
    refine .cons held.consistent_toList ?_
    have hrest := ih (held.report diagnostic)
    simp only [toList_report, List.append_assoc, List.singleton_append] at hrest
    exact hrest

end Diagnostics

end StyleScope
