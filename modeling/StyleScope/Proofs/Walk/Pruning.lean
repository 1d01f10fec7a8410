import StyleScope.Proofs.Walk.Runs
import StyleScope.Proofs.Walk.Skipping

/-!
# Skipping takes away insides

Whatever a visitor skips, and whatever that depends on, its walk is the whole tour without what is
strictly inside the items it skips.
-/

namespace StyleScope

/-! ## The tour -/

theorem key_stop (visit : Visit) : visit.stop.key = visit.key := by
  obtain ⟨place, around, call⟩ := visit
  cases call <;> rfl

theorem Sheet.visits_none (sheet : Sheet) :
    (sheet.visits (skippingAt fun _ => false)).map Visit.stop = sheet.tour := by
  have hnone : ∀ place, isInside (fun _ => false) place = false := by
    intro place
    induction place with
    | nil => rfl
    | cons index place ih => exact ih
  refine (stops_visitsFrom (fun part _ => stops_visits part) rfl).trans ?_
  simp only [hnone]
  exact List.filter_eq_self.mpr fun _ _ => rfl

theorem Sheet.nodup_tour (sheet : Sheet) : (sheet.tour.map Stop.key).Nodup := by
  rw [← visits_none, List.map_map]
  simp only [Function.comp_def, key_stop]
  exact nodup_visitsFrom fun part _ => nodup_visits part

theorem Sheet.outside_none {sheet : Sheet} {skipped : Place → Bool}
    (h : ∀ place, skipped place = false) : outside skipped [] sheet.tour = sheet.tour := by
  have hnone : skipped = fun _ => false := funext h
  rw [← stops_of_skipsAt (skipsAt_iff.mpr (sheet.agrees_visits _)), hnone, visits_none]

/-- The places of what is entered, in this order. -/
def enteredPlaces (stops : List Stop) : List Place :=
  (stops.filter (·.event.kind = .enter)).map (·.place)

theorem enteredPlaces_append (first rest : List Stop) :
    enteredPlaces (first ++ rest) = enteredPlaces first ++ enteredPlaces rest := by
  simp [enteredPlaces]

theorem enteredPlaces_cons_enter {stop : Stop} (h : stop.event.kind = .enter) (stops : List Stop) :
    enteredPlaces (stop :: stops) = stop.place :: enteredPlaces stops := by
  simp [enteredPlaces, h]

theorem mem_enteredPlaces {place : Place} {stops : List Stop} :
    place ∈ enteredPlaces stops ↔ (place, .enter) ∈ stops.map Stop.key := by
  simp only [enteredPlaces, List.mem_map, List.mem_filter, decide_eq_true_eq, Stop.key,
    Prod.mk.injEq]
  exact exists_congr fun stop => by tauto

theorem nodup_enteredPlaces {stops : List Stop} (h : (stops.map Stop.key).Nodup) :
    (enteredPlaces stops).Nodup := by
  have hkeys : (enteredPlaces stops).map (·, Call.Kind.enter) =
      (stops.filter (·.event.kind = .enter)).map Stop.key := by
    rw [enteredPlaces, List.map_map]
    apply List.map_congr_left
    intro stop hmem
    have hkind := of_decide_eq_true (List.mem_filter.mp hmem).2
    simp [Stop.key, hkind]
  have hnodup : ((enteredPlaces stops).map (·, Call.Kind.enter)).Nodup := by
    rw [hkeys]
    exact h.sublist (List.filter_sublist.map _)
  exact hnodup.of_map _

theorem getElem?_eq_some_iff {before after : List Place} {place : Place} {number : Nat}
    (h : (before ++ place :: after).Nodup) :
    (before ++ place :: after)[number]? = some place ↔ number = before.length := by
  have hget : (before ++ place :: after)[before.length]? = some place := by simp
  rw [← hget, eq_comm, List.getElem?_inj (by simp) h, eq_comm]

/-! ## The number of an item -/

/-- The place of the item that is entered after `number` others when nothing is skipped. -/
def Sheet.entered? (sheet : Sheet) (number : Nat) : Option Place :=
  (enteredPlaces sheet.tour)[number]?

theorem isBetween_eq_false {skipped : Place → Bool} {earlier : List Stop}
    (h : ∀ place ∈ enteredPlaces earlier, skipped place = false) (later : List Stop) :
    isBetween skipped earlier later = false := by
  rw [Bool.eq_false_iff, ne_eq, isBetween_iff]
  rintro ⟨above, habove, hentered, -⟩
  rw [h above (mem_enteredPlaces.mpr hentered)] at habove
  cases habove

theorem outside_append {skipped : Place → Bool} {earlier first : List Stop}
    (h : ∀ place ∈ enteredPlaces (earlier ++ first), skipped place = false) (rest : List Stop) :
    outside skipped earlier (first ++ rest) = first ++ outside skipped (earlier ++ first) rest := by
  induction first generalizing earlier with
  | nil => rw [List.append_nil, List.nil_append, List.nil_append]
  | cons stop first ih =>
    have hearlier : ∀ place ∈ enteredPlaces earlier, skipped place = false := by
      intro place hplace
      apply h place
      rw [enteredPlaces_append]
      exact List.mem_append_left _ hplace
    rw [List.append_cons] at h ⊢
    rw [List.cons_append, outside, isBetween_eq_false hearlier, ih h]
    rfl

theorem Sheet.entered?_of_outside {sheet : Sheet} {place : Place} {number : Nat}
    (h : (enteredPlaces (outside (· = place) [] sheet.tour))[number]? = some place) :
    sheet.entered? number = some place := by
  have hsublist : (enteredPlaces (outside (· = place) [] sheet.tour)).Sublist
      (enteredPlaces sheet.tour) := by
    rw [outside_tour]
    exact (List.filter_sublist.filter _).map _
  obtain ⟨entered, hentered, rfl⟩ := List.mem_map.mp (hsublist.subset (List.mem_of_getElem? h))
  obtain ⟨hmem, hkind⟩ := List.mem_filter.mp hentered
  obtain ⟨before, after, htour⟩ := List.append_of_mem hmem
  have hplaces : ∀ rest, enteredPlaces (before ++ entered :: rest) =
      enteredPlaces before ++ entered.place :: enteredPlaces rest := by
    intro rest
    rw [enteredPlaces_append, enteredPlaces_cons_enter (of_decide_eq_true hkind)]
  have hnodup := nodup_enteredPlaces sheet.nodup_tour
  have houtside := hnodup.sublist hsublist
  rw [htour, hplaces] at hnodup
  -- Nothing is taken away before the item to skip, so the number of its entering is the same.
  have hbefore : ∀ place ∈ enteredPlaces before, decide (place = entered.place) = false := by
    intro place hplace
    apply decide_eq_false
    rintro rfl
    exact (List.nodup_append'.mp hnodup).2.2 hplace List.mem_cons_self
  have hkept : outside (· = entered.place) [] sheet.tour =
      before ++ entered :: outside (· = entered.place) (before ++ [entered]) after := by
    have hfirst : ∀ place ∈ enteredPlaces ([] ++ before), decide (place = entered.place) = false :=
      hbefore
    rw [htour, outside_append hfirst, List.nil_append, outside, isBetween_eq_false hbefore]
    rfl
  rw [hkept, hplaces] at h houtside
  rw [entered?, htour, hplaces, getElem?_eq_some_iff hnodup]
  exact (getElem?_eq_some_iff houtside).mp h

/-! ## What a walk leaves out -/

/-- The places of the items that satisfy `p`. -/
def Sheet.placesOf (sheet : Sheet) (p : Item → Bool) (place : Place) : Bool :=
  match sheet.at? place with
  | some (.item item) => p item
  | _ => false

namespace Visitor

variable {σ : Type} {visitor : Visitor (StateM σ)} {sheet : Sheet} {before after : σ}
  {moments : List (Moment σ)} {answer : Place → Item → Action}

theorem skipsAt_placesOf {p : Item → Bool}
    (henter : ∀ item state,
      (visitor.enter item state).1 = if p item then .skipChildren else .descend)
    (hruns : visitor.Runs before moments after)
    (hcalls : moments.map (·.call) = (sheet.visits answer).map (·.call)) :
    SkipsAt (sheet.placesOf p) (sheet.visits answer) := by
  intro visit hvisit item given hcall
  have hmem : Call.enter item given ∈ moments.map (·.call) := by
    rw [hcalls, ← hcall]
    exact List.mem_map_of_mem hvisit
  obtain ⟨⟨_, state, state'⟩, hmoment, rfl⟩ := List.mem_map.mp hmem
  have hdoes : visitor.enter item state = (given, state') := hruns.does _ hmoment
  have hgiven : given = if p item then .skipChildren else .descend := by
    rw [← henter item state, hdoes]
  have hat : sheet.at? visit.place = some (.item item) := by
    rw [Sheet.at?_of_mem_visits hvisit, hcall]
    rfl
  have hplace : sheet.placesOf p visit.place = p item := by rw [Sheet.placesOf, hat]
  rw [hgiven, hplace]
  cases p item <;> simp

theorem Runs.split {first rest : List (Moment σ)} (h : visitor.Runs before (first ++ rest) after) :
    ∃ between, visitor.Runs before first between ∧ visitor.Runs between rest after := by
  induction first generalizing before with
  | nil => exact ⟨before, .nil before, h⟩
  | cons moment first ih =>
    rcases h with _ | ⟨hdoes, hrest⟩
    obtain ⟨between, hfirst, hlast⟩ := ih hrest
    exact ⟨between, .cons hdoes hfirst, hlast⟩

/-! ## Skipping what is entered at a given number -/

section

variable {log log' : Log} {moments : List (Moment Log)} {answers : Log → Item → Action}

theorem after_of_does {moment : Moment Log} (h : (recorder answers).Does moment) :
    moment.after = ⟨moment.before.events.push moment.call.event,
      moment.before.entered + if moment.call.kind = .enter then 1 else 0⟩ := by
  obtain ⟨call, before, after⟩ := moment
  cases call <;> exact (congrArg Prod.snd h).symm

theorem Runs.recorded (h : (recorder answers).Runs log moments log') :
    log'.events.toList = log.events.toList ++ moments.map (·.call.event) ∧
      log'.entered = log.entered + (moments.map (·.call)).countP (·.kind = .enter) := by
  induction h with
  | nil => simp
  | @cons call before between after moments hdoes _ ih =>
    have hafter := after_of_does hdoes
    simp only at hafter
    simp only [ih, hafter, Array.toList_push, List.append_assoc, List.singleton_append,
      List.map_cons, List.countP_cons, decide_eq_true_eq, true_and]
    omega

theorem length_enteredPlaces (visits : List Visit) :
    (enteredPlaces (visits.map Visit.stop)).length =
      (visits.map (·.call)).countP (·.kind = .enter) := by
  have hkind : ∀ visit : Visit, visit.stop.event.kind = visit.call.kind :=
    fun visit => congrArg Prod.snd (key_stop visit)
  rw [enteredPlaces, List.length_map, ← List.countP_eq_length_filter, List.countP_map,
    List.countP_map]
  simp only [Function.comp_def, hkind]

theorem skipsAt_number {number : Nat}
    (hruns : (recorder fun log _ => if log.entered = number then .skipChildren else .descend).Runs
      {} moments log')
    (hcalls : moments.map (·.call) = (sheet.visits answer).map (·.call)) :
    SkipsAt (fun place =>
        (enteredPlaces ((sheet.visits answer).map Visit.stop))[number]? = some place)
      (sheet.visits answer) := by
  intro visit hvisit item given hcall
  have hnodup : (enteredPlaces ((sheet.visits answer).map Visit.stop)).Nodup := by
    apply nodup_enteredPlaces
    rw [List.map_map]
    simp only [Function.comp_def, key_stop]
    exact nodup_visitsFrom fun part _ => nodup_visits part
  obtain ⟨first, rest, hvisits⟩ := List.append_of_mem hvisit
  rw [hvisits, List.map_append, List.map_cons] at hcalls
  obtain ⟨firsts, tail, rfl, hfirst, htail⟩ := List.map_eq_append_iff.mp hcalls
  obtain ⟨⟨_, state, state'⟩, rests, rfl, rfl, -⟩ := List.map_eq_cons_iff.mp htail
  obtain ⟨between, hbefore, hlater⟩ := hruns.split
  -- What is answered depends on how many callbacks before this one have entered something.
  rcases hlater with _ | ⟨hdoes, -⟩
  have hentered : state.entered = (enteredPlaces (first.map Visit.stop)).length := by
    rw [hbefore.recorded.2, hfirst, length_enteredPlaces, Nat.zero_add]
  have hgiven : given = if state.entered = number then .skipChildren else .descend := by
    simp only [Does, hcall] at hdoes
    exact (congrArg Prod.fst hdoes).symm
  have hkind : visit.stop.event.kind = .enter := by
    simp only [Visit.stop, hcall, Call.event, Event.kind]
  rw [hvisits, List.map_append, List.map_cons, enteredPlaces_append,
    enteredPlaces_cons_enter hkind] at hnodup ⊢
  rw [decide_eq_true_eq]
  change _ ↔ _ = some visit.stop.place
  rw [getElem?_eq_some_iff hnodup, hgiven, ← hentered]
  by_cases hnumber : state.entered = number
  · simp [hnumber]
  · simp [hnumber, Ne.symm hnumber]

theorem stops_of_number {number : Nat}
    (hruns : (recorder fun log _ => if log.entered = number then .skipChildren else .descend).Runs
      {} moments log')
    (hcalls : moments.map (·.call) = (sheet.visits answer).map (·.call)) :
    (sheet.visits answer).map Visit.stop =
      outside (fun place => sheet.entered? number = some place) [] sheet.tour := by
  have hstops := Sheet.stops_of_skipsAt (skipsAt_number hruns hcalls)
  cases hplace : (enteredPlaces ((sheet.visits answer).map Visit.stop))[number]? with
  | none =>
    simp only [hplace] at hstops
    rw [Sheet.outside_none (by simp)] at hstops
    rw [hstops] at hplace ⊢
    rw [Sheet.outside_none]
    intro place
    simp [Sheet.entered?, hplace]
  | some place =>
    have hsame : (fun other => decide (some place = some other)) = (decide <| · = place) := by
      funext other
      simp [eq_comm]
    simp only [hplace, hsame] at hstops
    rw [hstops] at hplace
    rw [hstops, Sheet.entered?_of_outside hplace, hsame]

end

end Visitor

/-! ## The tour and the walks -/

theorem Sheet.exists_skipsAt (sheet : Sheet) (answer : Place → Item → Action) :
    ∃ skipped, SkipsAt skipped (sheet.visits answer) := by
  refine ⟨fun place => match sheet.at? place with
    | some (.item item) => answer place item = .skipChildren
    | _ => false, ?_⟩
  intro visit hvisit item given hcall
  have hgiven : answer visit.place item = given :=
    sheet.agrees_visits answer visit hvisit item given hcall
  have hat : sheet.at? visit.place = some (.item item) := by
    rw [at?_of_mem_visits hvisit, hcall]
    rfl
  simp only [hat, hgiven, decide_eq_true_eq]

/-- A walk that skips the items at some places is the whole tour without what lies strictly between
entering and leaving one of them. -/
theorem Sheet.skipping_removes_insides (sheet : Sheet) :
    ((sheet.tour.map Stop.key).Nodup ∧
      ∀ place event, ⟨place, event⟩ ∈ sheet.tour ↔ sheet.at? place = some event.part) ∧
    (∀ {σ : Type} (visitor : Visitor (StateM σ)) (before : σ), ∃ visits moments after,
      visitor.watch sheet before = pure (moments, after) ∧
      visitor.walkSheet sheet before = pure ((), after) ∧
      moments.map (·.call) = visits.map (·.call) ∧
      Disciplined sheet visits ∧
      (∃ skipped, SkipsAt skipped visits) ∧
      (∀ skipped, SkipsAt skipped visits →
        visits.map Visit.stop = outside skipped [] sheet.tour) ∧
      (∀ p, (∀ item state,
          (visitor.enter item state).1 = if p item then .skipChildren else .descend) →
        visits.map Visit.stop = outside (sheet.placesOf p) [] sheet.tour) ∧
      ((∀ item state, (visitor.enter item state).1 = .descend) →
        visits.map Visit.stop = sheet.tour)) ∧
    (∀ skipped, ∃ answers visits moments after,
      Visitor.scripted.watch sheet answers = pure (moments, after) ∧
      moments.map (·.call) = visits.map (·.call) ∧
      SkipsAt skipped visits ∧
      visits.map Visit.stop = outside skipped [] sheet.tour) ∧
    ∀ number, ∃ log,
      (Visitor.recorder fun log _ =>
          if log.entered = number then .skipChildren else .descend).walkSheet sheet {} =
        pure ((), log) ∧
      log.events.toList =
        (outside (fun place => sheet.entered? number = some place) [] sheet.tour).map (·.event) ∧
      ((enteredPlaces sheet.tour).length ≤ number →
        log.events.toList = sheet.tour.map (·.event)) := by
  refine ⟨⟨sheet.nodup_tour, fun place event => mem_tour_iff⟩, ?_, ?_, ?_⟩
  · intro σ visitor before
    obtain ⟨answer, moments, after, hwatch, hwalk, hcalls, hruns⟩ :=
      visitor.exists_walk sheet before
    have hplaces : ∀ p, (∀ item state,
        (visitor.enter item state).1 = if p item then .skipChildren else .descend) →
          (sheet.visits answer).map Visit.stop = outside (sheet.placesOf p) [] sheet.tour :=
      fun p henter => stops_of_skipsAt (Visitor.skipsAt_placesOf henter hruns hcalls)
    refine ⟨sheet.visits answer, moments, after, hwatch, hwalk, hcalls,
      disciplined_visits sheet answer, sheet.exists_skipsAt answer,
      fun skipped => stops_of_skipsAt, hplaces, ?_⟩
    intro hdescend
    rw [hplaces (fun _ => false) hdescend, outside_none]
    intro place
    unfold placesOf
    split <;> rfl
  · intro skipped
    obtain ⟨moments, hwatch, hcalls⟩ := Visitor.watch_scripted sheet (skippingAt skipped)
    have hskips := skipsAt_iff.mpr (sheet.agrees_visits (skippingAt skipped))
    exact ⟨_, _, moments, [], hwatch, hcalls, hskips, stops_of_skipsAt hskips⟩
  · intro number
    obtain ⟨answer, moments, log, -, hwalk, hcalls, hruns⟩ := Visitor.exists_walk
      (Visitor.recorder fun log _ => if log.entered = number then .skipChildren else .descend)
      sheet {}
    have hevents : log.events.toList =
        (outside (fun place => sheet.entered? number = some place) [] sheet.tour).map (·.event) := by
      rw [hruns.recorded.1, ← Visitor.stops_of_number hruns hcalls, List.map_map]
      change [] ++ moments.map (Call.event ∘ (·.call)) = _
      rw [← List.map_map, hcalls, List.map_map]
      rfl
    refine ⟨log, hwalk, hevents, fun hpast => ?_⟩
    rw [hevents, outside_none]
    intro place
    simp [entered?, List.getElem?_eq_none hpast]

end StyleScope
