import StyleScope.Proofs.Scope.Moments
import StyleScope.Proofs.Scope.Sessions
import StyleScope.Proofs.Sheet.RoundTrip
import StyleScope.Proofs.Walk.Callbacks
import StyleScope.Proofs.Walk.Depth
import StyleScope.Proofs.Walk.Discipline

/-!
# What is read is not nested deep

The walk of a sheet has no limit of its own, but the text of a sheet has one. So a sheet that was
read from a text is walked with few items around, and with few branches open.
-/

namespace StyleScope

namespace Validator

variable {S : Type} [ListedSink S]

/-! ## Open branches at a callback -/

/-- A callback as a step of a session. -/
def Step.ofCall : Call → Step
  | .enter item _ => .enter item
  | .leave item => .leave item
  | .value v => .value v

theorem perform_of_happens {moment : Moment (Validator S)} (h : moment.Happens visitor) :
    ∃ answer, (Step.ofCall moment.call).perform moment.before = .ok (answer, moment.after) := by
  obtain ⟨call, before, after⟩ := moment
  cases call with
  | enter item answer =>
    refine ⟨some answer, ?_⟩
    have henter : visitor.enter item before = .ok (answer, after) := h
    simp only [Step.ofCall, Step.perform, bind, StateT.bind, Except.bind, henter]
    rfl
  | leave item =>
    refine ⟨none, ?_⟩
    have hleave : visitor.leave item before = .ok ((), after) := h
    simp only [Step.ofCall, Step.perform, bind, StateT.bind, Except.bind, hleave]
    rfl
  | value v =>
    refine ⟨none, ?_⟩
    have hvalue : visitor.value v before = .ok ((), after) := h
    simp only [Step.ofCall, Step.perform, bind, StateT.bind, Except.bind, hvalue]
    rfl

theorem depth_le_branches {start : Validator S} {visit : Visit} {moment : Moment (Validator S)}
    (hstart : start.scopes = []) (h : Follows start visit moment)
    (hhappens : moment.Happens visitor) :
    moment.before.depth ≤ visit.branches.length ∧ moment.after.depth ≤ visit.branches.length := by
  obtain ⟨answer, hperform⟩ := perform_of_happens hhappens
  have hafter := Step.scopes_of_perform hperform
  have hbefore := h.scopes
  rw [hstart, List.reverse_nil, List.nil_append] at hbefore
  have hbefore : moment.before.scopes.length = visit.opened.length := by
    rw [← hbefore, List.length_reverse]
  rw [h.call] at hafter
  unfold depth
  rw [hafter, hbefore]
  -- Entering a branch puts it on top, and leaving it takes it away; nothing else makes a difference.
  cases hcall : visit.call with
  | enter item _ =>
    cases item <;> simp [Visit.branches, Visit.opened, hcall, hbefore, Call.part, Step.ofCall,
      Step.opens, Part.branchLocation?]
  | leave item =>
    cases item <;> simp [Visit.branches, Visit.opened, hcall, hbefore, Call.part, Step.ofCall,
      Step.opens, Part.branchLocation?]
  | value v =>
    simp [Visit.branches, Visit.opened, hcall, hbefore, Call.part, Step.ofCall, Step.opens,
      Part.branchLocation?]

/-! ## Runs -/

theorem run_of_walk {sheet : Sheet} {validator after : Validator S}
    (h : visitor.walkSheet sheet { validator with scopes := [] } = .ok ((), after))
    (hscopes : after.scopes = []) : run sheet validator = .ok ((), after) := by
  simp only [run, bind, StateT.bind, Except.bind, modify, modifyGet, MonadStateOf.modifyGet,
    StateT.modifyGet, pure, Except.pure, h]
  simp only [get, getThe, MonadStateOf.get, StateT.get, pure, Except.pure, hscopes]
  rfl

theorem exists_of_forall₂ {α β : Type} {R : α → β → Prop} {as : List α} {bs : List β}
    (h : List.Forall₂ R as bs) {b : β} (hb : b ∈ bs) : ∃ a ∈ as, R a b := by
  induction h with
  | nil => cases hb
  | cons hab _ ih =>
    rcases List.mem_cons.mp hb with rfl | hb
    · exact ⟨_, by simp, hab⟩
    · obtain ⟨a, ha, hr⟩ := ih hb
      exact ⟨a, by simp [ha], hr⟩

/-- Each branch that is open in a run of a sheet takes four brackets of what is written of it. -/
theorem run_depth_le (sheet : Sheet) (validator : Validator S) :
    ∃ moments after, visitor.watch sheet { validator with scopes := [] } = .ok (moments, after) ∧
      run sheet validator = .ok ((), after) ∧
      ∀ moment ∈ moments, 4 * moment.before.depth + 3 ≤ sheet.toJson.depth ∧
        4 * moment.after.depth + 3 ≤ sheet.toJson.depth := by
  have hstart : Inside ({ validator with scopes := [] } : Validator S) []
      { validator with scopes := [] } := ⟨rfl, rfl⟩
  obtain ⟨moments, after, hends, hafter, hmoments⟩ :=
    walkParts_follows (fun part _ => walkPart_follows part) 0 [] [] _ hstart
  obtain ⟨hwatch, hwalk⟩ := Visitor.watch_eq hends
  have hscopes : after.scopes = [] := by simpa using hafter.scopes
  refine ⟨moments, after, hwatch, run_of_walk hwalk hscopes, ?_⟩
  intro moment hmem
  obtain ⟨visit, hvisit, hfollows⟩ := exists_of_forall₂ hmoments hmem
  have hfollows : Follows _ visit moment := hfollows
  have hdepth := branches_of_mem_sheet_visits hvisit
  have hbranches := depth_le_branches rfl hfollows (Visitor.happens_of_watch hwatch moment hmem)
  omega

/-! ## Accepted sheets -/

/-- A sheet that was read has nodes at most 63 deep, a run of it at most 31 branches open, and a
walk of it at most 62 items around any callback. -/
theorem bounded_of_parse {text : String} {sheet : Sheet} (h : Sheet.parse text = .ok sheet) :
    (∀ occurrence ∈ sheet.occurrences, occurrence.depth ≤ 63) ∧
    (∀ validator : Validator S, ∃ moments after,
      visitor.watch sheet { validator with scopes := [] } = .ok (moments, after) ∧
        run sheet validator = .ok ((), after) ∧
        ∀ moment ∈ moments, moment.before.depth ≤ 31 ∧ moment.after.depth ≤ 31) ∧
    ∀ {σ : Type} (visitor : Visitor (StateM σ)) (before : σ), ∃ answer moments after,
      visitor.watch sheet before = pure (moments, after) ∧
        moments.map (·.call) = (sheet.visits answer).map (·.call) ∧
        ∀ visit ∈ sheet.visits answer, visit.around.length ≤ 62 := by
  have hdepth : sheet.toJson.depth ≤ 128 :=
    Sheet.depth_le_of_readDocument (Sheet.eq_read_of_parse h)
  refine ⟨?_, ?_, ?_⟩
  · intro occurrence hmem
    have hoccurrence := depth_of_mem_sheet_occurrences hmem
    omega
  · intro validator
    obtain ⟨moments, after, hwatch, hrun, hmoments⟩ := run_depth_le sheet validator
    refine ⟨moments, after, hwatch, hrun, ?_⟩
    intro moment hmem
    have hmoment := hmoments moment hmem
    omega
  · intro σ visitor before
    obtain ⟨answer, moments, after, hends, hcalls⟩ := visitor.exists_visits_of_parts
      (fun part _ => visitor.exists_visits part) 0 before
    refine ⟨answer, moments, after, (Visitor.watch_eq hends).1, hcalls, ?_⟩
    intro visit hmem
    have hvisit := depth_of_mem_sheet_visits hmem
    omega

theorem exists_occurrence_nestedNode (n : Nat) (around : List Item) :
    ∃ occurrence ∈ nodesOccurrences around [Sheet.nestedNode n],
      occurrence.depth = around.countP Item.isNode + n + 1 := by
  induction n generalizing around with
  | zero =>
    refine ⟨⟨.declaration "p" [] none, around⟩, ?_, rfl⟩
    simp [Sheet.nestedNode, nodesOccurrences, Node.occurrences]
  | succ n ih =>
    obtain ⟨occurrence, hmem, hdepth⟩ :=
      ih (.node (.ruleset [] [Sheet.nestedNode n] none) :: around)
    refine ⟨occurrence, ?_, ?_⟩
    · rw [Sheet.nestedNode, nodesOccurrences, Node.occurrences, nodesOccurrences, List.append_nil]
      exact List.mem_cons_of_mem _ hmem
    · rw [hdepth, List.countP_cons_of_pos rfl]
      omega

/-- Rulesets within each other come as deep as nodes may. -/
theorem nestedRulesets_bounded :
    Sheet.parse (Sheet.textOfNodes [Sheet.nestedRulesets 62]) = .ok ⟨"", [Sheet.nestedNode 62]⟩ ∧
      (∀ occurrence ∈ (Sheet.mk "" [Sheet.nestedNode 62]).occurrences, occurrence.depth ≤ 63) ∧
      ∃ occurrence ∈ (Sheet.mk "" [Sheet.nestedNode 62]).occurrences, occurrence.depth = 63 := by
  have hparse := Sheet.parse_nestedRulesets (Nat.le_refl 62)
  have hbounded := @bounded_of_parse Diagnostics _ _ _ hparse
  exact ⟨hparse, hbounded.1, exists_occurrence_nestedNode 62 []⟩

end Validator

end StyleScope
