import StyleScope.Diagnostic.Encode
import StyleScope.Proofs.Json.Documents
import StyleScope.Proofs.Scope.Walks
import StyleScope.Proofs.Sheet.Growth
import StyleScope.Proofs.Sheet.Written

/-!
# Reading diagnostics back

A collection of diagnostics is written as a list of objects. The members of each object tell what
the diagnostic was, so nothing is lost.
-/

namespace StyleScope

open Json (Mismatch Shape Spelling)

/-! ## What the members mean -/

/-- A string that is the name of one of several kinds. -/
def Json.asNamed {α : Type} (nameOf : α → String) (kinds : List α) (json : Json) :
    Except Mismatch α := do
  named nameOf kinds (← asString json)

def Phase.all : List Phase := [.parse, .validate]

def Severity.all : List Severity := [.error, .warning]

theorem asNamed_phase (phase : Phase) :
    Json.asNamed Phase.name Phase.all (.string phase.name) = .ok phase := by
  apply Json.named_eq
  · intro a _ b _ h
    cases a <;> cases b <;> simp [Phase.name] at h ⊢
  · cases phase <;> decide

theorem asNamed_severity (severity : Severity) :
    Json.asNamed Severity.name Severity.all (.string severity.name) = .ok severity := by
  apply Json.named_eq
  · intro a _ b _ h
    cases a <;> cases b <;> simp [Severity.name] at h ⊢
  · cases severity <;> decide

namespace Diagnostic

/-- The members of a diagnostic. Where there is no place, the member holds `null`. -/
def shape : Shape Diagnostic :=
  mk <$> .required "code" Json.asString <*>
    .required "phase" (Json.asNamed Phase.name Phase.all) <*>
    .required "severity" (Json.asNamed Severity.name Severity.all) <*>
    .required "message" Json.asString <*>
    .required "location" (Json.asOption Location.ofJson) <*>
    .required "enclosing" (Json.asOption Location.ofJson)

/-- The value is an object with just the members of a diagnostic, which are read as this one. -/
def ToldBy (json : Json) (diagnostic : Diagnostic) : Prop :=
  ∃ members, json = .object members ∧
    members.map Prod.fst = ["code", "phase", "severity", "message", "location", "enclosing"] ∧
    shape.ofMembers members = .ok diagnostic

theorem toldBy_toJson (diagnostic : Diagnostic) : ToldBy diagnostic.toJson diagnostic := by
  refine ⟨_, rfl, rfl, ?_⟩
  have hnames : ["code", "phase", "severity", "message", "location", "enclosing"].Nodup := by simp
  have hcode : Json.asString (.string diagnostic.code) = .ok diagnostic.code := rfl
  have hmessage : Json.asString (.string diagnostic.message) = .ok diagnostic.message := rfl
  have hreads := ((((((Shape.Reads.required "code" hcode).map mk).seq
    (.required "phase" (asNamed_phase diagnostic.phase))).seq
    (.required "severity" (asNamed_severity diagnostic.severity))).seq
    (.required "message" hmessage)).seq
    (.required "location" (asOption_location diagnostic.location))).seq
    (.required "enclosing" (asOption_location diagnostic.enclosing))
  exact hreads.ofMembers hnames

theorem toldBy_unique : Relator.RightUnique ToldBy := by
  rintro _ diagnostic other ⟨members, rfl, -, hread⟩ ⟨members', heq, -, hread'⟩
  cases heq
  exact Except.ok.inj (hread.symm.trans hread')

/-! ## What is written -/

theorem counted_toJson (diagnostic : Diagnostic) : diagnostic.toJson.Counted :=
  ⟨trivial, trivial, trivial, trivial, counted_optionalLocation diagnostic.location,
    counted_optionalLocation diagnostic.enclosing, trivial⟩

theorem depth_toJson_le (diagnostic : Diagnostic) : diagnostic.toJson.depth ≤ 3 := by
  have hplace : ∀ place : Option Location, (locationToJson place).depth ≤ 2 :=
    fun place => depth_locationToJson_le fun _ _ => le_refl 2
  have hlocation := hplace diagnostic.location
  have henclosing := hplace diagnostic.enclosing
  simp only [toJson, Json.depth, Json.depthOfMembers]
  omega

end Diagnostic

namespace Diagnostics

/-- What a collection holds after some reports. -/
def ofReports (reports : List Diagnostic) : Diagnostics := reports.foldl report empty

theorem toList_ofReports (reports : List Diagnostic) : (ofReports reports).toList = reports := by
  have hlist := toList_foldl_report empty reports
  rw [toList_empty, List.nil_append] at hlist
  exact hlist

theorem readDocument_text (diagnostics : Diagnostics) :
    Json.readDocument (Json.value Json.nestingLimit) diagnostics.text =
      .ok (.list (diagnostics.toList.map Diagnostic.toJson)) := by
  apply Json.readDocument_text
  · exact counted_map Diagnostic.counted_toJson diagnostics.toList
  · apply Nat.le_trans (depth_list_map_le fun diagnostic _ => diagnostic.depth_toJson_le)
    decide

theorem toldBy_items (diagnostics : Diagnostics) :
    List.Forall₂ Diagnostic.ToldBy (diagnostics.toList.map Diagnostic.toJson)
      diagnostics.toList := by
  rw [List.forall₂_map_left_iff, List.forall₂_same]
  exact fun diagnostic _ => diagnostic.toldBy_toJson

theorem toList_eq_of_text {diagnostics other : Diagnostics} (h : diagnostics.text = other.text) :
    diagnostics.toList = other.toList := by
  have hread := readDocument_text diagnostics
  rw [h, readDocument_text] at hread
  have hitems := Json.list.inj (Except.ok.inj hread)
  have hother := toldBy_items other
  rw [hitems] at hother
  exact List.right_unique_forall₂' Diagnostic.toldBy_unique (toldBy_items diagnostics) hother

/-- Nothing that was reported is lost when it is written: the text is a list of objects, and their
members are read as the reports in their order. -/
theorem written_reports_read_back (reports : List Diagnostic) :
    (∃ items,
      Json.readDocument (Json.value Json.nestingLimit) (ofReports reports).text =
        .ok (.list items) ∧
      (∃ before s after, (ofReports reports).text = Spelling.document before s after) ∧
      (∀ before s after, (ofReports reports).text = Spelling.document before s after →
        s.value? = some (.list items)) ∧
      List.Forall₂ Diagnostic.ToldBy items reports) ∧
    ∀ other : Diagnostics, other.text = (ofReports reports).text → other.toList = reports := by
  constructor
  · have hread := readDocument_text (ofReports reports)
    obtain ⟨hspelled, hspells⟩ := Json.spells_of_readDocument hread
    refine ⟨_, hread, hspelled, hspells, ?_⟩
    have htold := toldBy_items (ofReports reports)
    rw [toList_ofReports] at htold ⊢
    exact htold
  · intro other h
    rw [toList_eq_of_text h, toList_ofReports]

end Diagnostics

end StyleScope
