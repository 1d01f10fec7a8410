import StyleScope.Proofs.Reports
import StyleScope.Proofs.Scope.Sessions
import StyleScope.Proofs.Walk.Occurrence

/-!
# Branches around everything

Nodes can be walked while branches are open, or they can stand inside branches. It comes to the
same: the innermost of these branches is the nearest one to what has none around it in the nodes,
and no other diagnostic knows of them.
-/

namespace StyleScope

/-! ## The nearest branch -/

namespace Occurrence

theorem diagnostic?_congr (mode : Mode) {occurrence other : Occurrence}
    (hnode : occurrence.node = other.node)
    (haround : nearestBranch occurrence.around = nearestBranch other.around) :
    occurrence.diagnostic? mode = other.diagnostic? mode := by
  unfold diagnostic? finding?
  rw [hnode, haround]

/-- What is reported where the branch at `innermost` is the nearest one around all nodes. -/
def reportInside? (mode : Mode) (innermost : Location) (occurrence : Occurrence) :
    Option Diagnostic :=
  (occurrence.inside (asAncestors [innermost])).diagnostic? mode

theorem nearestBranch_inside (outer : List Item) (occurrence : Occurrence) :
    nearestBranch (occurrence.inside outer).around =
      (nearestBranch occurrence.around).or (nearestBranch outer) :=
  nearestBranch_append ..

theorem reportInside?_eq (mode : Mode) {innermost : Location} {outer : List Item}
    (h : nearestBranch outer = some innermost) (occurrence : Occurrence) :
    (occurrence.inside outer).diagnostic? mode = occurrence.reportInside? mode innermost := by
  apply diagnostic?_congr
  · rfl
  · rw [nearestBranch_inside, nearestBranch_inside, h, nearestBranch_asAncestors, List.head?_cons]

theorem isSome_reportInside? (mode : Mode) (innermost : Location) (occurrence : Occurrence) :
    (occurrence.reportInside? mode innermost).isSome = occurrence.finding?.isSome := by
  have hbranch : ∃ branch, .branch branch ∈ (occurrence.inside (asAncestors [innermost])).around :=
    ⟨⟨.opening, none, [], innermost⟩, by simp [inside, asAncestors]⟩
  rw [Bool.eq_iff_iff]
  unfold reportInside?
  rw [diagnostic?_isSome_iff]
  constructor
  · intro h
    exact h.1
  · intro h
    exact ⟨h, hbranch⟩

theorem offends_iff (occurrence : Occurrence) :
    occurrence.offends ↔
      occurrence.finding?.isSome ∧ ∃ nearest, nearestBranch occurrence.around = some nearest := by
  rw [← isSome_diagnostic? .strict, diagnostic?_isSome_iff, ← nearestBranch_isSome_iff]
  exact and_congr_right fun _ => Option.isSome_iff_exists

theorem reportInside?_of_offends (mode : Mode) (innermost : Location) {occurrence : Occurrence}
    (h : occurrence.offends) :
    occurrence.reportInside? mode innermost = occurrence.diagnostic? mode := by
  obtain ⟨-, nearest, hnearest⟩ := occurrence.offends_iff.mp h
  apply diagnostic?_congr
  · rfl
  · rw [nearestBranch_inside, hnearest, Option.some_or]

theorem reportInside?_of_not_offends (mode : Mode) (innermost : Location) {occurrence : Occurrence}
    (h : occurrence.offends = false) (hsome : occurrence.finding?.isSome) :
    ∃ finding location, occurrence.finding? = some finding ∧
      occurrence.node.location = some location ∧
      occurrence.reportInside? mode innermost = some {
        code := match finding with
          | .definition => "R001"
          | .external => "R002"
        phase := .validate
        severity := match mode with
          | .strict => .error
          | .lenient => .warning
        message := finding.wording mode
        location := some location
        enclosing := some innermost } := by
  obtain ⟨finding, hfinding⟩ := Option.isSome_iff_exists.mp hsome
  obtain ⟨diagnostic, hreport⟩ : ∃ diagnostic,
      occurrence.reportInside? mode innermost = some diagnostic := by
    rw [← Option.isSome_iff_exists, isSome_reportInside?, hsome]
  obtain ⟨⟨location, hlocation, -⟩, -⟩ := of_diagnostic? hreport
  have hnone : nearestBranch occurrence.around = none := by
    rw [Option.eq_none_iff_forall_ne_some]
    intro nearest hnearest
    rw [occurrence.offends_iff.mpr ⟨hsome, nearest, hnearest⟩] at h
    cases h
  have hnearest :
      nearestBranch (occurrence.inside (asAncestors [innermost])).around = some innermost := by
    rw [nearestBranch_inside, hnone, nearestBranch_asAncestors]
    rfl
  have hinside : (occurrence.inside (asAncestors [innermost])).finding? = some finding := hfinding
  refine ⟨finding, location, hfinding, hlocation, ?_⟩
  rw [← hlocation]
  unfold reportInside? diagnostic?
  rw [hinside, hnearest]
  rfl

end Occurrence

/-- What is reported of some occurrences where the branch at `innermost` is the nearest one around
all of them, each report with what it is about. -/
def reportsInside (mode : Mode) (innermost : Location) (occurrences : List Occurrence) :
    List (Occurrence × Diagnostic) :=
  occurrences.filterMap fun occurrence =>
    (occurrence.reportInside? mode innermost).map fun diagnostic => (occurrence, diagnostic)

theorem map_fst_reportsInside (mode : Mode) (innermost : Location)
    (occurrences : List Occurrence) :
    (reportsInside mode innermost occurrences).map Prod.fst =
      occurrences.filter (·.finding?.isSome) := by
  unfold reportsInside
  induction occurrences with
  | nil => rfl
  | cons occurrence rest ih =>
    rw [List.filterMap_cons, List.filter_cons,
      ← Occurrence.isSome_reportInside? mode innermost occurrence]
    cases occurrence.reportInside? mode innermost <;> simp [ih]

theorem map_snd_reportsInside (mode : Mode) {innermost : Location} {outer : List Item}
    (h : nearestBranch outer = some innermost) (nodes : List Node) :
    (reportsInside mode innermost (nodesOccurrences [] nodes)).map Prod.snd =
      diagnosticsOf mode (nodesOccurrences outer nodes) := by
  unfold diagnosticsOf reportsInside
  rw [nodesOccurrences_inside outer nodes, List.filterMap_map, List.map_filterMap]
  apply List.filterMap_congr
  intro occurrence _
  rw [Function.comp_apply, Occurrence.reportInside?_eq mode h]
  cases occurrence.reportInside? mode innermost <;> rfl

theorem filter_reportsInside (mode : Mode) (innermost : Location) (occurrences : List Occurrence) :
    ((reportsInside mode innermost occurrences).filter (·.1.offends)).map Prod.snd =
      diagnosticsOf mode occurrences := by
  induction occurrences with
  | nil => rfl
  | cons occurrence rest ih =>
    rw [diagnosticsOf_cons, ← ih]
    unfold reportsInside
    rw [List.filterMap_cons]
    cases hoffends : occurrence.offends with
    | true =>
      rw [Occurrence.reportInside?_of_offends mode innermost hoffends]
      cases occurrence.diagnostic? mode <;> simp [hoffends]
    | false =>
      have hnone : occurrence.diagnostic? mode = none := by
        rw [← Option.not_isSome_iff_eq_none, occurrence.isSome_diagnostic? mode, hoffends]
        simp
      rw [hnone]
      cases occurrence.reportInside? mode innermost <;> simp [hoffends]

/-! ## Nodes inside blocks -/

/-- Nodes inside conditional blocks of one branch each. The blocks come outermost first, with their
places, and the children of their branches are of no matter. -/
def enclosed (blocks : List (Branch × Option Location)) (nodes : List Node) : List Node :=
  blocks.foldr (fun (branch, location) inner =>
    [.conditionalBlock [{ branch with children := inner }] location]) nodes

theorem enclosed_cons (block : Branch × Option Location) (blocks : List (Branch × Option Location))
    (nodes : List Node) :
    enclosed (block :: blocks) nodes =
      [.conditionalBlock [{ block.1 with children := enclosed blocks nodes }] block.2] := rfl

theorem diagnosticsOf_block (mode : Mode) (around : List Item) (branch : Branch)
    (location : Option Location) :
    diagnosticsOf mode (nodesOccurrences around [.conditionalBlock [branch] location]) =
      diagnosticsOf mode (nodesOccurrences
        (.branch branch :: .node (.conditionalBlock [branch] location) :: around)
        branch.children) := by
  obtain ⟨kind, condition, children, place⟩ := branch
  have hnone : (⟨.conditionalBlock [⟨kind, condition, children, place⟩] location, around⟩ :
      Occurrence).diagnostic? mode = none := Validator.diagnostic_none mode (.inl rfl)
  simp only [nodesOccurrences, Node.occurrences, branchesOccurrences, Branch.occurrences,
    List.append_nil, diagnosticsOf_cons, hnone, Option.toList_none, List.nil_append]

theorem diagnosticsOf_enclosed (mode : Mode) (outer : List (Branch × Option Location))
    (innermost : Branch × Option Location) (nodes : List Node) (around : List Item) :
    ∃ inner, nearestBranch inner = some innermost.1.location ∧
      diagnosticsOf mode (nodesOccurrences around (enclosed (outer ++ [innermost]) nodes)) =
        diagnosticsOf mode (nodesOccurrences inner nodes) := by
  induction outer generalizing around with
  | nil => exact ⟨_, rfl, diagnosticsOf_block ..⟩
  | cons block outer ih =>
    rw [List.cons_append, enclosed_cons, diagnosticsOf_block]
    exact ih _

namespace Validator

variable {S : Type} [Sink S]

/-! ## Nodes walked with open branches -/

theorem performAll_enter (branches : List Branch) (validator : Validator S) :
    ∃ answers, Step.performAll (branches.map fun branch => .enter (.branch branch)) validator =
      .ok (answers, { validator with
        scopes := (branches.map Branch.location).reverse ++ validator.scopes }) := by
  induction branches using List.reverseRecOn with
  | nil => exact ⟨[], rfl⟩
  | append_singleton branches branch ih =>
    obtain ⟨answers, hbranches⟩ := ih
    refine ⟨answers ++ [some .descend], ?_⟩
    rw [List.map_append, List.map_singleton, Step.performAll_snoc_of_ok hbranches, List.map_append,
      List.reverse_append]
    rfl

/-- Nodes that are walked with branches open are reported like nodes inside the innermost one. -/
theorem performAll_enter_walk (outer : List Branch) (innermost : Branch) (nodes : List Node)
    (validator : Validator S) {around : List Item}
    (haround : nearestBranch around = some innermost.location) :
    ∃ answers after, Step.performAll ((outer ++ [innermost]).map (fun branch =>
        .enter (.branch branch)) ++ [.walk nodes]) validator = .ok (answers, after) ∧
      after.sink = (diagnosticsOf validator.mode (nodesOccurrences around nodes)).foldl Sink.report
        validator.sink := by
  obtain ⟨answers, hentered⟩ := performAll_enter (outer ++ [innermost]) validator
  have hscope : (((outer ++ [innermost]).map Branch.location).reverse ++ validator.scopes).head? =
      nearestBranch around := by
    rw [haround, List.map_append, List.reverse_append]
    rfl
  have hwalk := Step.perform_walk nodes { validator with
    scopes := ((outer ++ [innermost]).map Branch.location).reverse ++ validator.scopes } hscope
  rw [Step.performAll_snoc_of_ok hentered, hwalk]
  exact ⟨_, _, rfl, rfl⟩

theorem told_of_enter_walk (mode : Mode) (nodes : List Node) (outer : List Branch)
    (innermost : Branch) :
    ∃ answers after, Step.performAll ((outer ++ [innermost]).map (fun branch =>
        .enter (.branch branch)) ++ [.walk nodes]) (.start mode Diagnostics.empty) =
          .ok (answers, after) ∧
      after.sink.toList =
        (reportsInside mode innermost.location (nodesOccurrences [] nodes)).map Prod.snd := by
  have hnearest : nearestBranch (asAncestors [innermost.location]) = some innermost.location := rfl
  obtain ⟨answers, after, hperform, hsink⟩ :=
    performAll_enter_walk outer innermost nodes (.start mode Diagnostics.empty) hnearest
  refine ⟨answers, after, hperform, ?_⟩
  rw [hsink, Diagnostics.toList_foldl_report, map_snd_reportsInside mode hnearest]
  rfl

theorem told_of_enclosed (mode : Mode) (name : String) (nodes : List Node)
    (outer : List (Branch × Option Location)) (innermost : Branch × Option Location) :
    ∃ diagnostics, (Sheet.mk name (enclosed (outer ++ [innermost]) nodes)).validate mode =
        .ok diagnostics ∧
      diagnostics.toList =
        (reportsInside mode innermost.1.location (nodesOccurrences [] nodes)).map Prod.snd := by
  obtain ⟨diagnostics, hvalidate, hlist⟩ :=
    exists_validate ⟨name, enclosed (outer ++ [innermost]) nodes⟩ mode
  obtain ⟨inner, hnearest, hinner⟩ := diagnosticsOf_enclosed mode outer innermost nodes []
  refine ⟨diagnostics, hvalidate, ?_⟩
  rw [hlist, map_snd_reportsInside mode hnearest, ← hinner]
  rfl

/-- Branches that are open around a walk are like branches around the nodes: only the innermost one
matters, and only to what has none around it among the nodes. -/
theorem only_innermost_matters (mode : Mode) (nodes : List Node) (innermost : Location) :
    ∃ told : List (Occurrence × Diagnostic),
      told.map Prod.fst = (nodesOccurrences [] nodes).filter (·.finding?.isSome) ∧
      (∀ name, ∃ alone, (Sheet.mk name nodes).validate mode = .ok alone ∧
        (told.filter (·.1.offends)).map Prod.snd = alone.toList) ∧
      (∀ entry ∈ told, entry.1.offends = false → ∃ finding location,
        entry.1.finding? = some finding ∧ entry.1.node.location = some location ∧
          entry.2 = {
            code := match finding with
              | .definition => "R001"
              | .external => "R002"
            phase := .validate
            severity := match mode with
              | .strict => .error
              | .lenient => .warning
            message := finding.wording mode
            location := some location
            enclosing := some innermost }) ∧
      (∀ (outer : List Branch) (branch : Branch), branch.location = innermost →
        ∃ answers after, Step.performAll ((outer ++ [branch]).map (fun branch =>
            .enter (.branch branch)) ++ [.walk nodes]) (.start mode Diagnostics.empty) =
              .ok (answers, after) ∧
          after.sink.toList = told.map Prod.snd) ∧
      ∀ (name : String) (outer : List (Branch × Option Location))
        (block : Branch × Option Location), block.1.location = innermost →
        ∃ diagnostics, (Sheet.mk name (enclosed (outer ++ [block]) nodes)).validate mode =
            .ok diagnostics ∧
          diagnostics.toList = told.map Prod.snd := by
  refine ⟨reportsInside mode innermost (nodesOccurrences [] nodes),
    map_fst_reportsInside mode innermost _, ?_, ?_, ?_, ?_⟩
  · intro name
    obtain ⟨alone, hvalidate, hlist⟩ := exists_validate ⟨name, nodes⟩ mode
    refine ⟨alone, hvalidate, ?_⟩
    rw [filter_reportsInside, hlist]
    rfl
  · rintro ⟨occurrence, diagnostic⟩ hentry hoffends
    obtain ⟨occurrence', -, hreport⟩ := List.mem_filterMap.mp hentry
    obtain ⟨diagnostic', hreport, heq⟩ := Option.map_eq_some_iff.mp hreport
    cases heq
    have hsome : occurrence.finding?.isSome := by
      rw [← occurrence.isSome_reportInside? mode innermost, hreport]
      rfl
    obtain ⟨finding, location, hfinding, hlocation, hliteral⟩ :=
      Occurrence.reportInside?_of_not_offends mode innermost hoffends hsome
    exact ⟨finding, location, hfinding, hlocation, Option.some.inj (hreport.symm.trans hliteral)⟩
  · rintro outer branch rfl
    exact told_of_enter_walk mode nodes outer branch
  · rintro name outer block rfl
    exact told_of_enclosed mode name nodes outer block

end Validator

end StyleScope
