import StyleScope.Proofs.Walk.Discipline

/-!
# The answers of a visitor along a walk

The state of a visitor is handed from each callback to the next one, and its answers are the ones
that it gives in these states. A visitor that reads its answers off a list can give any answers.
-/

namespace StyleScope

namespace Visitor

variable {σ : Type} {visitor : Visitor (StateM σ)}

/-- A moment is what the visitor does in the state before it. -/
def Does (visitor : Visitor (StateM σ)) (moment : Moment σ) : Prop :=
  match moment.call with
  | .enter item answer => visitor.enter item moment.before = pure (answer, moment.after)
  | .leave item => visitor.leave item moment.before = pure ((), moment.after)
  | .value v => visitor.value v moment.before = pure ((), moment.after)

/-- Each moment is what the visitor does in the state that the one before it ended in. -/
inductive Runs (visitor : Visitor (StateM σ)) : σ → List (Moment σ) → σ → Prop
  | nil (state : σ) : Runs visitor state [] state
  | cons {call : Call} {before between after : σ} {moments : List (Moment σ)}
      (does : visitor.Does ⟨call, before, between⟩) (rest : Runs visitor between moments after) :
      Runs visitor before (⟨call, before, between⟩ :: moments) after

variable {before between after : σ}

theorem Runs.append {first rest : List (Moment σ)} (h : visitor.Runs before first between)
    (h' : visitor.Runs between rest after) : visitor.Runs before (first ++ rest) after := by
  induction h with
  | nil => exact h'
  | cons does _ ih => exact .cons does (ih h')

theorem Runs.does {moments : List (Moment σ)} (h : visitor.Runs before moments after) :
    ∀ moment ∈ moments, visitor.Does moment := by
  induction h with
  | nil => exact nofun
  | cons does _ ih => exact List.forall_mem_cons.mpr ⟨does, ih⟩

/-! ## What a walk runs -/

theorem exists_runs_of_parts {parts : List Part}
    (h : ∀ part ∈ parts, ∀ before, ∃ moments after,
      Ends (visitor.walkPart part) (visitor.watched.walkPart part) before moments after ∧
        visitor.Runs before moments after) (before : σ) :
    ∃ moments after,
      Ends (visitor.walkParts parts) (visitor.watched.walkParts parts) before moments after ∧
        visitor.Runs before moments after := by
  induction parts generalizing before with
  | nil => exact ⟨[], before, ends_pure before, .nil before⟩
  | cons part parts ih =>
    obtain ⟨first, between, hpart, hfirst⟩ := h part (by simp) before
    obtain ⟨rest, after, hparts, hrest⟩ := ih (fun part hmem => h part (by simp [hmem])) between
    exact ⟨first ++ rest, after, hpart.bind hparts, hfirst.append hrest⟩

theorem exists_runs (visitor : Visitor (StateM σ)) (part : Part) (before : σ) :
    ∃ moments after,
      Ends (visitor.walkPart part) (visitor.watched.walkPart part) before moments after ∧
        visitor.Runs before moments after := by
  induction part using Part.induction generalizing before with
  | value v =>
    have hvalue : visitor.value v before = pure ((), (visitor.value v before).2) := rfl
    exact ⟨_, _, ends_value hvalue, .cons hvalue (.nil _)⟩
  | item item ih =>
    rcases henter : visitor.enter item before with ⟨answer, entered⟩
    have hleave : ∀ inner, visitor.leave item inner = pure ((), (visitor.leave item inner).2) :=
      fun _ => rfl
    have hleaves : ∀ inner, visitor.Runs inner
        [⟨.leave item, inner, (visitor.leave item inner).2⟩] (visitor.leave item inner).2 :=
      fun inner => .cons (hleave inner) (.nil _)
    cases answer with
    | descend =>
      obtain ⟨moments, inner, hinside, hruns⟩ := exists_runs_of_parts ih entered
      exact ⟨_, _, ends_item hinside henter (hleave inner),
        .cons henter (hruns.append (hleaves inner))⟩
    | skipChildren =>
      have hskipped : ([] : List (Moment σ)) = [] ∧ entered = entered := ⟨rfl, rfl⟩
      exact ⟨_, _, ends_item hskipped henter (hleave entered),
        .cons henter (hleaves entered)⟩

theorem Ends.unique {walk : StateM σ Unit} {watched : Watching σ Id Unit}
    {moments moments' : List (Moment σ)} {after' : σ} (h : Ends walk watched before moments after)
    (h' : Ends walk watched before moments' after') : moments = moments' ∧ after = after' := by
  have heq := (h.2 []).symm.trans (h'.2 [])
  cases heq
  exact ⟨rfl, rfl⟩

/-- The callbacks of a walk are visits of the sheet, and they are what the visitor does. -/
theorem exists_walk (visitor : Visitor (StateM σ)) (sheet : Sheet) (before : σ) :
    ∃ answer moments after,
      visitor.watch sheet before = pure (moments, after) ∧
        visitor.walkSheet sheet before = pure ((), after) ∧
          moments.map (·.call) = (sheet.visits answer).map (·.call) ∧
            visitor.Runs before moments after := by
  obtain ⟨answer, moments, after, hends, hcalls⟩ :=
    exists_visits_of_parts visitor (fun part _ => exists_visits visitor part) 0 before
  obtain ⟨moments', after', hends', hruns⟩ :=
    exists_runs_of_parts (fun part _ => exists_runs visitor part) before
  obtain ⟨rfl, rfl⟩ := hends.unique hends'
  obtain ⟨hwatch, hwalk⟩ := watch_eq hends
  exact ⟨answer, moments, after, hwatch, hwalk, hcalls, hruns⟩

/-! ## A visitor with its answers at hand -/

/-- Answers with the first of the answers in its state. -/
def scripted : Visitor (StateM (List Action)) where
  enter _ := modifyGet fun answers => (answers.headD .descend, answers.tail)

end Visitor

def Visit.answer? (visit : Visit) : Option Action :=
  match visit.call with
  | .enter _ answer => some answer
  | .leave _ => none
  | .value _ => none

/-- The answers in the order in which a walk asks for them. -/
def script (visits : List Visit) : List Action := visits.filterMap Visit.answer?

theorem script_append (first rest : List Visit) :
    script (first ++ rest) = script first ++ script rest :=
  List.filterMap_append

theorem script_under (visits : List Visit) (place : Place) (around : List Item) :
    script (visits.map (·.under place around)) = script visits := by
  unfold script
  rw [List.filterMap_map]
  rfl

namespace Visitor

theorem ends_scripted_of_parts {parts : List Part}
    (h : ∀ part ∈ parts, ∀ answer rest, ∃ moments,
      Ends (scripted.walkPart part) (scripted.watched.walkPart part)
          (script (part.visits answer) ++ rest) moments rest ∧
        moments.map (·.call) = (part.visits answer).map (·.call))
    (first : Nat) (answer : Place → Item → Action) (rest : List Action) :
    ∃ moments,
      Ends (scripted.walkParts parts) (scripted.watched.walkParts parts)
          (script (visitsFrom first answer parts) ++ rest) moments rest ∧
        moments.map (·.call) = (visitsFrom first answer parts).map (·.call) := by
  induction parts generalizing first with
  | nil => exact ⟨[], ends_pure rest, rfl⟩
  | cons part parts ih =>
    obtain ⟨later, hparts, hcalls'⟩ := ih (fun part hmem => h part (by simp [hmem])) (first + 1)
    obtain ⟨moments, hpart, hcalls⟩ := h part (by simp) (fun place => answer (first :: place))
      (script (visitsFrom (first + 1) answer parts) ++ rest)
    refine ⟨moments ++ later, ?_, ?_⟩
    · rw [visitsFrom_cons, script_append, script_under, List.append_assoc]
      exact hpart.bind hparts
    · rw [visitsFrom_cons, List.map_append, List.map_append, List.map_map, hcalls, hcalls']
      rfl

theorem ends_scripted (part : Part) (answer : Place → Item → Action) (rest : List Action) :
    ∃ moments,
      Ends (scripted.walkPart part) (scripted.watched.walkPart part)
          (script (part.visits answer) ++ rest) moments rest ∧
        moments.map (·.call) = (part.visits answer).map (·.call) := by
  induction part using Part.induction generalizing answer rest with
  | value v =>
    rw [visits_value]
    exact ⟨_, ends_value rfl, rfl⟩
  | item item ih =>
    have henter : ∀ answer answers, scripted.enter item (answer :: answers) =
        (pure (answer, answers) : Id _) := fun _ _ => rfl
    have hleave : scripted.leave item rest = (pure ((), rest) : Id _) := rfl
    rw [visits_item]
    cases answer [] item with
    | descend =>
      obtain ⟨moments, hinside, hcalls⟩ := ends_scripted_of_parts ih 0 answer rest
      have hscript : script (⟨[], [], .enter item .descend⟩ ::
          ((visitsFrom 0 answer item.parts).map (·.under [] [item]) ++ [⟨[], [], .leave item⟩])) =
            .descend :: script (visitsFrom 0 answer item.parts) := by
        rw [← List.singleton_append, script_append, script_append, script_under]
        exact congrArg _ (List.append_nil _)
      have hdescend := henter .descend (script (visitsFrom 0 answer item.parts) ++ rest)
      simp only [hscript, List.cons_append]
      refine ⟨_, ends_item hinside hdescend hleave, ?_⟩
      simp [hcalls, Visit.under, Function.comp_def]
    | skipChildren =>
      have hskipped : ([] : List (Moment (List Action))) = [] ∧ rest = rest := ⟨rfl, rfl⟩
      exact ⟨_, ends_item hskipped (henter .skipChildren rest) hleave, rfl⟩

theorem watch_scripted (sheet : Sheet) (answer : Place → Item → Action) :
    ∃ moments, scripted.watch sheet (script (sheet.visits answer)) = pure (moments, []) ∧
      moments.map (·.call) = (sheet.visits answer).map (·.call) := by
  obtain ⟨moments, hends, hcalls⟩ :=
    ends_scripted_of_parts (fun part _ => ends_scripted part) 0 answer []
  rw [List.append_nil] at hends
  exact ⟨moments, (watch_eq hends).1, hcalls⟩

end Visitor

end StyleScope
