import StyleScope.Proofs.Walk.Moments

/-!
# The discipline of walks

Whatever a visitor answers, a walk enters and leaves like brackets: it leaves what it has entered,
once, and visits in between just what is directly inside, in document order.
-/

namespace StyleScope

/-! ## Brackets -/

namespace Visit

/-- The places that are open after a visit, innermost first; only the innermost one can be left. -/
def opens? (opened : List Place) (visit : Visit) : Option (List Place) :=
  match visit.call with
  | .enter .. => some (visit.place :: opened)
  | .value _ => some opened
  | .leave _ =>
    match opened with
    | [] => none
    | innermost :: outer => if innermost = visit.place then some outer else none

/-- Whatever is open before the visits, they leave it open and close all that they open. -/
def Balanced (visits : List Visit) : Prop :=
  ∀ opened, visits.foldlM opens? opened = some opened

/-- The depth after a visit, if it is `depth` before. -/
def depthAfter (depth : Nat) (visit : Visit) : Nat :=
  match visit.call with
  | .enter .. => depth + 1
  | .value _ => depth
  | .leave _ => depth - 1

/-- What is visited at the depth zero, with its place. -/
def outermost : (depth : Nat) → List Visit → List (Place × Part)
  | _, [] => []
  | depth, visit :: visits =>
    (if depth = 0 ∧ visit.call.kind ≠ .leave then [(visit.place, visit.call.part)] else []) ++
      outermost (visit.depthAfter depth) visits

/-- Where an item is entered, the same item is left at the same place later on. In between all
brackets are closed, and what is visited outside of them is what is directly inside the item, unless
it is skipped. -/
def Closed (visits : List Visit) : Prop :=
  ∀ before place around item answer rest,
    visits = before ++ ⟨place, around, .enter item answer⟩ :: rest →
      ∃ inside after, rest = inside ++ ⟨place, around, .leave item⟩ :: after ∧ Balanced inside ∧
        match answer with
        | .descend =>
          outermost 0 inside = item.parts.zipIdx.map fun (part, index) => (place ++ [index], part)
        | .skipChildren => inside = []

end Visit

/-- The visits of a sheet by a walk that keeps the discipline. -/
structure Disciplined (sheet : Sheet) (visits : List Visit) : Prop where
  /-- Each visit is about what stands at its place. -/
  stands : ∀ visit ∈ visits, sheet.at? visit.place = some visit.call.part
  /-- No place is entered twice, and none is left twice. -/
  once : (visits.map Visit.key).Nodup
  balanced : Visit.Balanced visits
  closed : Visit.Closed visits
  /-- The nodes of the sheet itself are visited in document order. -/
  outermost : Visit.outermost 0 visits =
    sheet.parts.zipIdx.map fun (part, index) => ([index], part)

namespace Visit

/-! ## Balance -/

theorem Balanced.append {first rest : List Visit} (h : Balanced first) (h' : Balanced rest) :
    Balanced (first ++ rest) := by
  intro opened
  rw [List.foldlM_append, h opened]
  exact h' opened

theorem opens?_under (place : Place) (around : List Item) (visit : Visit)
    {opened opened' : List Place} (outer : List Place) (h : opens? opened visit = some opened') :
    opens? (opened.map (place ++ ·) ++ outer) (visit.under place around) =
      some (opened'.map (place ++ ·) ++ outer) := by
  unfold opens? at h ⊢
  simp only [under]
  split at h
  · cases h
    rfl
  · cases h
    rfl
  · split at h
    · cases h
    · split at h
      · cases h
        simp_all
      · cases h

theorem Balanced.under {visits : List Visit} (h : Balanced visits) (place : Place)
    (around : List Item) : Balanced (visits.map (·.under place around)) := by
  have hfold : ∀ (visits : List Visit) (opened opened' outer : List Place),
      visits.foldlM opens? opened = some opened' →
        (visits.map (·.under place around)).foldlM opens? (opened.map (place ++ ·) ++ outer) =
          some (opened'.map (place ++ ·) ++ outer) := by
    intro visits
    induction visits with
    | nil =>
      rintro opened opened' outer ⟨⟩
      rfl
    | cons visit visits ih =>
      intro opened opened' outer hvisits
      rw [List.foldlM_cons] at hvisits
      obtain ⟨between, hvisit, hrest⟩ := Option.bind_eq_some_iff.mp hvisits
      rw [List.map_cons, List.foldlM_cons, opens?_under place around visit outer hvisit]
      exact ih between opened' outer hrest
  intro opened
  exact hfold visits [] [] opened (h [])

theorem Balanced.enclosed {inside : List Visit} (h : Balanced inside) (item : Item)
    (answer : Action) :
    Balanced (⟨[], [], .enter item answer⟩ :: (inside ++ [⟨[], [], .leave item⟩])) := by
  intro opened
  rw [List.foldlM_cons]
  change (inside ++ _).foldlM opens? ([] :: opened) = _
  rw [List.foldlM_append, h]
  rfl

theorem length_of_opens? {opened opened' : List Place} {visit : Visit}
    (h : opens? opened visit = some opened') : opened'.length = visit.depthAfter opened.length := by
  unfold opens? at h
  unfold depthAfter
  split at h
  · cases h
    rfl
  · cases h
    rfl
  · split at h
    · cases h
    · split at h <;> cases h
      rfl

theorem Balanced.depth {visits : List Visit} (h : Balanced visits) (depth : Nat) :
    visits.foldl (fun depth visit => visit.depthAfter depth) depth = depth := by
  have hfold : ∀ (visits : List Visit) (opened opened' : List Place),
      visits.foldlM opens? opened = some opened' →
        visits.foldl (fun depth visit => visit.depthAfter depth) opened.length = opened'.length := by
    intro visits
    induction visits with
    | nil =>
      rintro opened opened' ⟨⟩
      rfl
    | cons visit visits ih =>
      intro opened opened' hvisits
      rw [List.foldlM_cons] at hvisits
      obtain ⟨between, hvisit, hrest⟩ := Option.bind_eq_some_iff.mp hvisits
      rw [List.foldl_cons, ← length_of_opens? hvisit]
      exact ih between opened' hrest
  have hdepth := hfold visits (List.replicate depth []) _ (h _)
  rwa [List.length_replicate] at hdepth

/-! ## What is outermost -/

theorem outermost_append (depth : Nat) (first rest : List Visit) :
    outermost depth (first ++ rest) = outermost depth first ++
      outermost (first.foldl (fun depth visit => visit.depthAfter depth) depth) rest := by
  induction first generalizing depth with
  | nil => rfl
  | cons visit first ih =>
    rw [List.cons_append, outermost, outermost, ih, List.foldl_cons, List.append_assoc]

theorem Balanced.outermost_append {first : List Visit} (h : Balanced first) (depth : Nat)
    (rest : List Visit) :
    outermost depth (first ++ rest) = outermost depth first ++ outermost depth rest := by
  rw [Visit.outermost_append, h.depth]

theorem outermost_under (depth : Nat) (place : Place) (around : List Item) (visits : List Visit) :
    outermost depth (visits.map (·.under place around)) =
      (outermost depth visits).map fun (inner, part) => (place ++ inner, part) := by
  induction visits generalizing depth with
  | nil => rfl
  | cons visit visits ih =>
    rw [List.map_cons, outermost, outermost, List.map_append, ← ih]
    congr 1
    by_cases hvisited : depth = 0 ∧ visit.call.kind ≠ .leave <;> simp [under, hvisited]

/-! ## What is closed -/

theorem Closed.append {first rest : List Visit} (h : Closed first) (h' : Closed rest) :
    Closed (first ++ rest) := by
  intro before place around item answer later heq
  rcases List.append_eq_append_iff.mp heq with ⟨middle, rfl, hrest⟩ | ⟨middle, hfirst, hlater⟩
  · exact h' middle place around item answer later hrest
  · rcases middle with _ | ⟨visit, middle⟩
    · exact h' [] place around item answer later hlater.symm
    · obtain ⟨rfl, rfl⟩ := List.cons.inj hlater
      obtain ⟨inside, after, rfl, hinside⟩ := h before place around item answer middle hfirst
      exact ⟨inside, after ++ rest, by simp, hinside⟩

theorem closed_nil : Closed [] := by
  intro before place around item answer rest heq
  simp at heq

theorem closed_leave (item : Item) : Closed [⟨[], [], .leave item⟩] := by
  intro before place around item answer rest heq
  rcases before with _ | ⟨visit, before⟩
  · cases heq
  · simp at heq

theorem Closed.enclosed {inside : List Visit} {item : Item} {answer : Action}
    (h : Closed inside) (hbalanced : Balanced inside)
    (hinside : match answer with
      | .descend =>
        outermost 0 inside = item.parts.zipIdx.map fun (part, index) => ([index], part)
      | .skipChildren => inside = []) :
    Closed (⟨[], [], .enter item answer⟩ :: (inside ++ [⟨[], [], .leave item⟩])) := by
  intro before place around item' answer' rest heq
  rcases before with _ | ⟨visit, before⟩
  · cases heq
    exact ⟨inside, [], rfl, hbalanced, hinside⟩
  · exact h.append (closed_leave item) before place around item' answer' rest (List.cons.inj heq).2

theorem Closed.under {visits : List Visit} (h : Closed visits) (place : Place)
    (around : List Item) : Closed (visits.map (·.under place around)) := by
  intro before place' around' item answer rest heq
  obtain ⟨before, tail, rfl, -, htail⟩ := List.map_eq_append_iff.mp heq
  obtain ⟨⟨inner, outer, call⟩, rest, rfl, hvisit, rfl⟩ := List.map_eq_cons_iff.mp htail
  cases hvisit
  obtain ⟨inside, after, rfl, hbalanced, hinside⟩ := h before inner outer item answer rest rfl
  refine ⟨inside.map (·.under place around), after.map (·.under place around), by simp [Visit.under],
    hbalanced.under place around, ?_⟩
  cases answer with
  | descend =>
    simp only at hinside ⊢
    rw [outermost_under, hinside, List.map_map]
    simp [Function.comp_def]
  | skipChildren => simpa using hinside

end Visit

/-! ## The visits of a tree -/

/-- The visits of parts that stand next to each other are balanced and closed, and the parts
themselves are what is outermost. -/
structure Orderly (outermost : List (Place × Part)) (visits : List Visit) : Prop where
  balanced : Visit.Balanced visits
  closed : Visit.Closed visits
  outer : Visit.outermost 0 visits = outermost
  inner : ∀ depth, Visit.outermost (depth + 1) visits = []

theorem Orderly.append {first rest : List Visit} {outer outer' : List (Place × Part)}
    (h : Orderly outer first) (h' : Orderly outer' rest) :
    Orderly (outer ++ outer') (first ++ rest) where
  balanced := h.balanced.append h'.balanced
  closed := h.closed.append h'.closed
  outer := by rw [h.balanced.outermost_append, h.outer, h'.outer]
  inner depth := by rw [h.balanced.outermost_append, h.inner, h'.inner, List.append_nil]

theorem orderly_visitsFrom {parts : List Part} (first : Nat) (answer : Place → Item → Action)
    (h : ∀ part ∈ parts, ∀ answer, Orderly [([], part)] (part.visits answer)) :
    Orderly ((parts.zipIdx first).map fun (part, index) => ([index], part))
      (visitsFrom first answer parts) := by
  induction parts generalizing first with
  | nil =>
    exact ⟨fun opened => rfl, Visit.closed_nil, rfl, fun depth => rfl⟩
  | cons part parts ih =>
    have hpart := h part (by simp) fun place => answer (first :: place)
    have hfirst : Orderly [([first], part)]
        ((part.visits fun place => answer (first :: place)).map (·.under [first] [])) := by
      refine ⟨hpart.balanced.under _ _, hpart.closed.under _ _, ?_, ?_⟩
      · rw [Visit.outermost_under, hpart.outer]
        rfl
      · intro depth
        rw [Visit.outermost_under, hpart.inner]
        rfl
    rw [visitsFrom_cons, List.zipIdx_cons, List.map_cons]
    exact hfirst.append (ih (first + 1) fun part hmem => h part (by simp [hmem]))

theorem orderly_visits (part : Part) (answer : Place → Item → Action) :
    Orderly [([], part)] (part.visits answer) := by
  induction part using Part.induction generalizing answer with
  | value v =>
    rw [visits_value]
    refine ⟨fun opened => rfl, ?_, rfl, fun depth => rfl⟩
    intro before place around item answer rest heq
    rcases before with _ | ⟨visit, before⟩
    · cases heq
    · simp at heq
  | item item ih =>
    have hinside := orderly_visitsFrom 0 answer ih
    rw [visits_item]
    cases answer [] item with
    | descend =>
      have hbalanced := hinside.balanced.under [] [item]
      have hdepth : ∀ depth, Visit.outermost (depth + 1)
          ((visitsFrom 0 answer item.parts).map (·.under [] [item]) ++ [⟨[], [], .leave item⟩]) =
          [] := by
        intro depth
        rw [hbalanced.outermost_append, Visit.outermost_under, hinside.inner]
        rfl
      refine ⟨hbalanced.enclosed item _, (hinside.closed.under _ _).enclosed hbalanced ?_, ?_, ?_⟩
      · rw [Visit.outermost_under, hinside.outer]
        simp
      · exact congrArg _ (hdepth 0)
      · intro depth
        exact hdepth (depth + 1)
    | skipChildren =>
      have hnone : Visit.Balanced [] := fun opened => rfl
      exact ⟨hnone.enclosed item _, Visit.closed_nil.enclosed hnone rfl, rfl, fun depth => rfl⟩

theorem disciplined_visits (sheet : Sheet) (answer : Place → Item → Action) :
    Disciplined sheet (sheet.visits answer) := by
  have horderly : Orderly _ (sheet.visits answer) :=
    orderly_visitsFrom 0 answer fun part _ => orderly_visits part
  refine ⟨fun visit => Sheet.at?_of_mem_visits, ?_, horderly.balanced, horderly.closed,
    horderly.outer⟩
  exact nodup_visitsFrom fun part _ => nodup_visits part

/-! ## Any visitor -/

namespace Visitor

variable {σ : Type}

/-- Answers for what stands at the empty place, and for what stands further inside. -/
def answersOf (here : Item → Action) (inside : Nat → Place → Item → Action) :
    Place → Item → Action
  | [] => here
  | index :: place => inside index place

theorem exists_visits_of_parts (visitor : Visitor (StateM σ)) {parts : List Part}
    (h : ∀ part ∈ parts, ∀ before, ∃ answer moments after,
      Ends (visitor.walkPart part) (visitor.watched.walkPart part) before moments after ∧
        moments.map (·.call) = (part.visits answer).map (·.call))
    (first : Nat) (before : σ) :
    ∃ answer moments after,
      Ends (visitor.walkParts parts) (visitor.watched.walkParts parts) before moments after ∧
        moments.map (·.call) = (visitsFrom first answer parts).map (·.call) := by
  induction parts generalizing first before with
  | nil => exact ⟨fun _ _ => .descend, [], before, ends_pure before, rfl⟩
  | cons part parts ih =>
    obtain ⟨answer, moments, between, hpart, hcalls⟩ := h part (by simp) before
    obtain ⟨answers, rest, after, hparts, hcalls'⟩ :=
      ih (fun part hmem => h part (by simp [hmem])) (first + 1) between
    -- The part stands at the index `first`, and those after it at larger ones.
    let both := answersOf (answers []) fun index place =>
      if index = first then answer place else answers (index :: place)
    have hthis : (fun place => both (first :: place)) = answer := by
      funext place
      exact if_pos rfl
    have hothers : visitsFrom (first + 1) both parts = visitsFrom (first + 1) answers parts := by
      apply visitsFrom_congr
      intro index place hle
      exact if_neg (by omega)
    refine ⟨both, moments ++ rest, after, hpart.bind hparts, ?_⟩
    rw [visitsFrom_cons, hthis, hothers, List.map_append, List.map_append, List.map_map, hcalls,
      hcalls']
    rfl

theorem exists_visits (visitor : Visitor (StateM σ)) (part : Part) (before : σ) :
    ∃ answer moments after,
      Ends (visitor.walkPart part) (visitor.watched.walkPart part) before moments after ∧
        moments.map (·.call) = (part.visits answer).map (·.call) := by
  induction part using Part.induction generalizing before with
  | value v =>
    have hvalue : visitor.value v before = pure ((), (visitor.value v before).2) := rfl
    refine ⟨fun _ _ => .descend, _, _, ends_value hvalue, ?_⟩
    rw [visits_value]
    rfl
  | item item ih =>
    rcases henter : visitor.enter item before with ⟨answer, entered⟩
    cases answer with
    | descend =>
      obtain ⟨answers, moments, inner, hinside, hcalls⟩ := exists_visits_of_parts visitor ih 0 entered
      have hleave : visitor.leave item inner = pure ((), (visitor.leave item inner).2) := rfl
      let all := answersOf (fun _ => .descend) fun index place => answers (index :: place)
      have hall : visitsFrom 0 all item.parts = visitsFrom 0 answers item.parts :=
        visitsFrom_congr fun index place _ => rfl
      refine ⟨all, _, _, ends_item hinside henter hleave, ?_⟩
      rw [visits_item, hall]
      simp [hcalls, all, answersOf, Visit.under, Function.comp_def]
    | skipChildren =>
      have hleave : visitor.leave item entered = pure ((), (visitor.leave item entered).2) := rfl
      have hskipped : ([] : List (Moment σ)) = [] ∧ entered = entered := ⟨rfl, rfl⟩
      refine ⟨fun _ _ => .skipChildren, _, _, ends_item hskipped henter hleave, ?_⟩
      rw [visits_item]
      rfl

/-- Whatever a visitor answers, and whatever its answers depend on, the callbacks of a walk of a
sheet are visits that keep the discipline. -/
theorem walk_disciplined (visitor : Visitor (StateM σ)) (sheet : Sheet) (before : σ) :
    ∃ visits moments after,
      visitor.watch sheet before = pure (moments, after) ∧
        visitor.walkSheet sheet before = pure ((), after) ∧
          moments.map (·.call) = visits.map (·.call) ∧ Disciplined sheet visits := by
  obtain ⟨answer, moments, after, hends, hcalls⟩ :=
    exists_visits_of_parts visitor (fun part _ => exists_visits visitor part) 0 before
  obtain ⟨hwatch, hwalk⟩ := watch_eq hends
  exact ⟨sheet.visits answer, moments, after, hwatch, hwalk, hcalls, disciplined_visits sheet answer⟩

end Visitor

end StyleScope
