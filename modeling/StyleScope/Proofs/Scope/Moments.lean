import StyleScope.Proofs.Scope.Findings
import StyleScope.Proofs.Walk.Moments

/-!
# What is open at each callback

While the validator walks, the branches that are open are those that were open before the walk and
then the branches around what is visited. What is reported at a callback follows from them.
-/

namespace StyleScope

/-- A sink with the list of what was reported to it. -/
class ListedSink (S : Type) extends Sink S where
  items : S → List Diagnostic
  items_report : ∀ sink diagnostic, items (report sink diagnostic) = items sink ++ [diagnostic]

instance : ListedSink (Array Diagnostic) where
  items := Array.toList
  items_report _ _ := Array.toList_push

instance : ListedSink Diagnostics where
  items := Diagnostics.toList
  items_report := Diagnostics.toList_report

theorem items_foldl_report {S : Type} [ListedSink S] (sink : S) (diagnostics : List Diagnostic) :
    ListedSink.items (diagnostics.foldl Sink.report sink) = ListedSink.items sink ++ diagnostics := by
  induction diagnostics generalizing sink with
  | nil => simp
  | cons diagnostic rest ih =>
    rw [List.foldl_cons, ih, ListedSink.items_report, List.append_assoc, List.singleton_append]

namespace Visit

/-- The places of the branches that a visit has around it, outermost first, and of the branch that
it leaves. -/
def opened (visit : Visit) : List Location :=
  visit.around.filterMap Item.branchLocation? ++
    match visit.call with
    | .leave (.branch branch) => [branch.location]
    | _ => []

/-- What must not stand inside a branch, if a visit enters such a thing. -/
def finding? (visit : Visit) : Option Finding :=
  match visit.call with
  | .enter (.node node) _ => (⟨node, visit.around.reverse⟩ : Occurrence).finding?
  | _ => none

/-- The diagnostic for what a visit enters; outside of the walk `scopes` are open. -/
def diagnostic? (mode : Mode) (scopes : List Location) (visit : Visit) : Option Diagnostic :=
  match visit.call with
  | .enter (.node node) _ =>
    (⟨node, visit.around.reverse ++ asAncestors scopes⟩ : Occurrence).diagnostic? mode
  | _ => none

theorem diagnostic?_isSome_iff (mode : Mode) (scopes : List Location) (visit : Visit) :
    (visit.diagnostic? mode scopes).isSome ↔
      visit.finding?.isSome ∧ (scopes ≠ [] ∨ ∃ branch, .branch branch ∈ visit.around) := by
  unfold diagnostic? finding?
  split
  · rename_i node answer _
    have hsame : (⟨node, visit.around.reverse ++ asAncestors scopes⟩ : Occurrence).finding? =
        (⟨node, visit.around.reverse⟩ : Occurrence).finding? := rfl
    rw [Occurrence.diagnostic?_isSome_iff, hsame, ← nearestBranch_isSome_iff, nearestBranch_append,
      nearestBranch_asAncestors, Option.isSome_or, Bool.or_eq_true, nearestBranch_isSome_iff,
      List.isSome_head?, or_comm]
    simp
  · simp

end Visit

namespace Validator

/-- The validator has no interest in the values of a definition. -/
def answerTo : Item → Action
  | .node (.definition ..) => .skipChildren
  | _ => .descend

/-- A callback of a walk as it should be, if the walk is started in the state `start`. -/
structure Follows {S : Type} [ListedSink S] (start : Validator S) (visit : Visit)
    (moment : Moment (Validator S)) : Prop where
  call : moment.call = visit.call
  scopes : moment.before.scopes.reverse = start.scopes.reverse ++ visit.opened
  sink : ListedSink.items moment.after.sink =
    ListedSink.items moment.before.sink ++ (visit.diagnostic? start.mode start.scopes).toList
  reported : (visit.diagnostic? start.mode start.scopes).isSome ↔
    visit.finding?.isSome ∧ (start.scopes ≠ [] ∨ ∃ branch, .branch branch ∈ visit.around)

/-- The validator during a walk from the state `start`, where it is inside the items `around`. -/
structure Inside {S : Type} (start : Validator S) (around : List Item) (validator : Validator S) :
    Prop where
  mode : validator.mode = start.mode
  scopes : validator.scopes.reverse = start.scopes.reverse ++ around.filterMap Item.branchLocation?

theorem Inside.nearestBranch {S : Type} {start validator : Validator S} {around : List Item}
    (h : Inside start around validator) :
    validator.scopes.head? = nearestBranch (around.reverse ++ asAncestors start.scopes) := by
  have hscopes := congrArg List.reverse h.scopes
  rw [List.reverse_reverse, List.reverse_append, List.reverse_reverse,
    ← List.filterMap_reverse] at hscopes
  rw [hscopes, nearestBranch_append, nearestBranch_asAncestors, List.head?_append,
    List.head?_filterMap]
  rfl

variable {S : Type} [ListedSink S] {start validator : Validator S} {around : List Item}

/-! ## One callback -/

theorem enter_fst (validator : Validator S) (item : Item) :
    (validator.enter item).1 = answerTo item := by
  cases item with
  | branch branch => rfl
  | node node => cases node <;> rfl

theorem visitor_enter (validator : Validator S) (item : Item) :
    (visitor.enter item : Validation S Action) validator =
      pure (answerTo item, (validator.enter item).2) := by
  rw [← enter_fst validator item]
  rfl

theorem Inside.enter (h : Inside start around validator) (item : Item) :
    Inside start (around ++ [item]) (validator.enter item).2 := by
  cases item with
  | branch branch =>
    refine ⟨h.mode, ?_⟩
    change (branch.location :: validator.scopes).reverse = _
    simp [h.scopes]
  | node node =>
    rw [enter_node validator node _ h.nearestBranch]
    refine ⟨h.mode, ?_⟩
    simp [h.scopes]

theorem Inside.leave {item : Item} (h : Inside start (around ++ [item]) validator) :
    ∃ after : Validator S, (visitor.leave item : Validation S Unit) validator = pure ((), after) ∧
      Inside start around after ∧ after.sink = validator.sink := by
  obtain ⟨hmode, hscopes⟩ := h
  rw [List.filterMap_append, ← List.append_assoc] at hscopes
  cases item with
  | node node =>
    refine ⟨validator, rfl, ⟨hmode, ?_⟩, rfl⟩
    rw [hscopes]
    simp
  | branch branch =>
    have hopen : validator.scopes = branch.location ::
        (start.scopes.reverse ++ around.filterMap Item.branchLocation?).reverse := by
      rw [← List.reverse_reverse validator.scopes, hscopes]
      simp
    refine ⟨{ validator with scopes := validator.scopes.tail }, ?_, ⟨hmode, ?_⟩, rfl⟩
    · simp only [visitor, Validator.leave, hopen, ↓reduceIte, List.tail_cons]
      rfl
    · rw [hopen, List.tail_cons, List.reverse_reverse]

theorem follows_value (h : Inside start around validator) (place : Place) (v : Value) :
    Follows start ⟨place, around, .value v⟩ ⟨.value v, validator, validator⟩ where
  call := rfl
  scopes := by simpa [Visit.opened] using h.scopes
  sink := by simp [Visit.diagnostic?]
  reported := Visit.diagnostic?_isSome_iff ..

theorem follows_enter (h : Inside start around validator) (place : Place) (item : Item) :
    Follows start ⟨place, around, .enter item (answerTo item)⟩
      ⟨.enter item (answerTo item), validator, (validator.enter item).2⟩ where
  call := rfl
  scopes := by simpa [Visit.opened] using h.scopes
  sink := by
    cases item with
    | branch branch => simp [Visit.diagnostic?, Validator.enter]
    | node node =>
      rw [enter_node validator node _ h.nearestBranch, h.mode]
      exact items_foldl_report ..
  reported := Visit.diagnostic?_isSome_iff ..

theorem follows_leave {item : Item} {after : Validator S}
    (h : Inside start (around ++ [item]) validator) (hsink : after.sink = validator.sink)
    (place : Place) :
    Follows start ⟨place, around, .leave item⟩ ⟨.leave item, validator, after⟩ where
  call := rfl
  scopes := by
    rw [h.scopes, List.filterMap_append]
    cases item <;> simp [Visit.opened]
  sink := by simp [Visit.diagnostic?, hsink]
  reported := Visit.diagnostic?_isSome_iff ..

/-! ## Walks -/

/-- A walk with the visits `visits`, seen from what is around it, ends where it started, and its
callbacks are as they should be. -/
def WalkFollows (start : Validator S) (place : Place) (around : List Item) (visits : List Visit)
    (walk : Validation S Unit) (watched : Watching (Validator S) (Except Violation) Unit) : Prop :=
  ∀ validator, Inside start around validator → ∃ moments after,
    Visitor.Ends walk watched validator moments after ∧ Inside start around after ∧
      List.Forall₂ (fun visit => Follows start (visit.under place around)) visits moments

theorem walkParts_follows {parts : List Part}
    (h : ∀ part ∈ parts, ∀ place around, WalkFollows start place around
      (part.visits fun _ => answerTo) (visitor.walkPart part) (visitor.watched.walkPart part))
    (first : Nat) (place : Place) (around : List Item) :
    WalkFollows start place around (visitsFrom first (fun _ => answerTo) parts)
      (visitor.walkParts parts) (visitor.watched.walkParts parts) := by
  induction parts generalizing first with
  | nil =>
    intro validator hinside
    exact ⟨[], validator, Visitor.ends_pure _, hinside, .nil⟩
  | cons part parts ih =>
    intro validator hinside
    obtain ⟨moments, between, hpart, hbetween, hmoments⟩ :=
      h part (by simp) (place ++ [first]) around validator hinside
    obtain ⟨moments', after, hparts, hafter, hmoments'⟩ :=
      ih (fun part hmem => h part (by simp [hmem])) (first + 1) between hbetween
    refine ⟨moments ++ moments', after, hpart.bind hparts, hafter, ?_⟩
    rw [visitsFrom_cons]
    refine List.rel_append ?_ hmoments'
    rw [List.forall₂_map_left_iff]
    simpa [Visit.under] using hmoments

/-- Whether the walk goes into an item or skips it, it is in the same state as after entering, except
for what was reported. -/
theorem walkInside_follows {item : Item} {entered : Validator S}
    (h : ∀ part ∈ item.parts, ∀ place around, WalkFollows start place around
      (part.visits fun _ => answerTo) (visitor.walkPart part) (visitor.watched.walkPart part))
    (place : Place) {around : List Item} (hentered : Inside start (around ++ [item]) entered) :
    ∃ moments inner, (match answerTo item with
        | .descend => Visitor.Ends (visitor.walkParts item.parts)
            (visitor.watched.walkParts item.parts) entered moments inner
        | .skipChildren => moments = [] ∧ inner = entered) ∧
      Inside start (around ++ [item]) inner ∧
      List.Forall₂ (fun visit => Follows start (visit.under place around))
        (match answerTo item with
        | .descend => (visitsFrom 0 (fun _ => answerTo) item.parts).map (·.under [] [item])
        | .skipChildren => []) moments := by
  cases answerTo item with
  | descend =>
    obtain ⟨moments, inner, hends, hinner, hmoments⟩ :=
      walkParts_follows h 0 place (around ++ [item]) _ hentered
    refine ⟨moments, inner, hends, hinner, ?_⟩
    rw [List.forall₂_map_left_iff]
    simpa [Visit.under] using hmoments
  | skipChildren => exact ⟨[], entered, ⟨rfl, rfl⟩, hentered, .nil⟩

theorem walkPart_follows (part : Part) (place : Place) (around : List Item) :
    WalkFollows start place around (part.visits fun _ => answerTo)
      (visitor.walkPart part) (visitor.watched.walkPart part) := by
  induction part using Part.induction generalizing place around with
  | value v =>
    intro validator hinside
    refine ⟨_, validator, Visitor.ends_value rfl, hinside, ?_⟩
    rw [visits_value]
    refine .cons ?_ .nil
    simpa [Visit.under] using follows_value hinside place v
  | item item ih =>
    intro validator hinside
    obtain ⟨moments, inner, hends, hinner, hmoments⟩ :=
      walkInside_follows ih place (hinside.enter item)
    obtain ⟨after, hleave, hafter, hsink⟩ := hinner.leave
    refine ⟨_, after, Visitor.ends_item hends (visitor_enter validator item) hleave, hafter, ?_⟩
    rw [visits_item]
    refine .cons ?_ (List.rel_append hmoments (.cons ?_ .nil))
    · simpa [Visit.under] using follows_enter hinside place item
    · simpa [Visit.under] using follows_leave hinner hsink place

/-- At each callback of a walk the open branches are those open before it and those around what is
visited, and what is reported follows from that. -/
theorem walk_follows_ancestors (start : Validator S) (sheet : Sheet) :
    ∃ moments after, visitor.watch sheet start = .ok (moments, after) ∧
      visitor.walkSheet sheet start = .ok ((), after) ∧
      List.Forall₂ (Follows start) (sheet.visits fun _ => answerTo) moments := by
  have hstart : Inside start [] start := ⟨rfl, by simp⟩
  obtain ⟨moments, after, hends, -, hmoments⟩ :=
    walkParts_follows (fun part _ => walkPart_follows part) 0 [] [] start hstart
  obtain ⟨hwatch, hwalk⟩ := Visitor.watch_eq hends
  exact ⟨moments, after, hwatch, hwalk, hmoments⟩

end Validator

end StyleScope
