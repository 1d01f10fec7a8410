import StyleScope.Proofs.Scope.Walks
import StyleScope.Report

/-!
# What a report says

Options that cannot be read come before a sheet that cannot be read, and both before what is found
in a sheet. A report has the status `ok` only if both texts can be read and nothing that is found
is an error.
-/

namespace StyleScope

namespace Occurrence

/-- Whether something stands inside a branch that must not. -/
def offends (occurrence : Occurrence) : Bool :=
  occurrence.finding?.isSome && occurrence.around.any fun
    | .branch _ => true
    | .node _ => false

theorem isSome_diagnostic? (mode : Mode) (occurrence : Occurrence) :
    (occurrence.diagnostic? mode).isSome = occurrence.offends := by
  rw [Bool.eq_iff_iff, diagnostic?_isSome_iff]
  unfold offends
  rw [Bool.and_eq_true, List.any_eq_true]
  refine and_congr_right fun _ => ⟨?_, ?_⟩
  · rintro ⟨branch, hmem⟩
    exact ⟨_, hmem, rfl⟩
  · rintro ⟨item, hmem, hbranch⟩
    cases item with
    | branch branch => exact ⟨branch, hmem⟩
    | node node => cases hbranch

theorem of_diagnostic? {mode : Mode} {occurrence : Occurrence} {diagnostic : Diagnostic}
    (h : occurrence.diagnostic? mode = some diagnostic) :
    (∃ location, occurrence.node.location = some location ∧
      diagnostic.location = some location) ∧
    (diagnostic.isError ↔ mode = .strict) := by
  obtain ⟨node, around⟩ := occurrence
  unfold diagnostic? at h
  simp only [Option.bind_eq_bind, Option.bind_eq_some_iff, Option.pure_def, Option.some.injEq] at h
  obtain ⟨finding, hfinding, enclosing, -, rfl⟩ := h
  constructor
  · cases node with
    | definition name values location => exact ⟨location, rfl, rfl⟩
    | atRule name params block location => exact ⟨location, rfl, rfl⟩
    | _ => cases hfinding
  · cases mode <;> simp [Diagnostic.isError]

end Occurrence

theorem exists_validate (sheet : Sheet) (mode : Mode) :
    ∃ diagnostics, sheet.validate mode = .ok diagnostics ∧
      diagnostics.toList = diagnosticsOf mode sheet.occurrences := by
  have hrun : Validator.run sheet (.start mode Diagnostics.empty) = _ := Validator.run_eq _ sheet
  refine ⟨(diagnosticsOf mode sheet.occurrences).foldl Sink.report Diagnostics.empty, ?_, ?_⟩
  · simp only [Sheet.validate, StateT.run, bind, Except.bind, hrun]
    rfl
  · rw [Diagnostics.toList_foldl_report, Diagnostics.toList_empty, List.nil_append]

namespace Report

/-- The line for a text that cannot be read. -/
def Line.unread (code message : String) : Line := ⟨code, "Parse", "error", message, none, none⟩

end Report

end StyleScope
