import StyleScope.Proofs.Walk.Tour

/-!
# What is skipped

Skipping items takes from the whole tour what lies strictly between entering and leaving one of
them. In a tour that is the same as what stands deeper than one of them, and this is what a walk
that skips them does not visit.
-/

namespace StyleScope

/-- One of the items at the places `skipped` is entered in `earlier` and left in `later`. -/
def isBetween (skipped : Place → Bool) (earlier later : List Stop) : Bool :=
  earlier.any fun entered =>
    entered.event.kind = .enter && skipped entered.place &&
      later.any fun left => left.event.kind = .leave && left.place = entered.place

/-- Deletes the stops strictly between entering and leaving an item at one of the places `skipped`;
the stops `earlier` come before these. -/
def outside (skipped : Place → Bool) (earlier : List Stop) : List Stop → List Stop
  | [] => []
  | stop :: later =>
    (if isBetween skipped earlier later then [] else [stop]) ++
      outside skipped (earlier ++ [stop]) later

/-- Whether a place is inside an item at one of the places `skipped`. -/
def isInside (skipped : Place → Bool) : Place → Bool
  | [] => false
  | index :: place => skipped [] || isInside (fun inner => skipped (index :: inner)) place

/-- Skips the items at the given places. -/
def skippingAt (skipped : Place → Bool) (place : Place) (_ : Item) : Action :=
  if skipped place then .skipChildren else .descend

variable {skipped : Place → Bool}

/-! ## Order -/

/-- What is at `above` is entered in `before` and left in `after`. -/
def Surrounds (above : Place) (before after : List Stop) : Prop :=
  (above, .enter) ∈ before.map Stop.key ∧ (above, .leave) ∈ after.map Stop.key

/-- What is at `place` is inside what is at `above`. -/
def Encloses (above place : Place) : Prop := ∃ index rest, place = above ++ index :: rest

theorem isBetween_iff {earlier later : List Stop} :
    isBetween skipped earlier later = true ↔
      ∃ above, skipped above = true ∧ Surrounds above earlier later := by
  simp only [isBetween, List.any_eq_true, Bool.and_eq_true, decide_eq_true_eq, Surrounds,
    List.mem_map, Stop.key, Prod.mk.injEq]
  constructor
  · rintro ⟨entered, hentered, ⟨henter, hskipped⟩, left, hleft, hleave, hplace⟩
    exact ⟨entered.place, hskipped, ⟨entered, hentered, rfl, henter⟩, left, hleft, hplace, hleave⟩
  · rintro ⟨_, hskipped, ⟨entered, hentered, rfl, henter⟩, left, hleft, hplace, hleave⟩
    exact ⟨entered, hentered, ⟨henter, hskipped⟩, left, hleft, hleave, hplace⟩

theorem encloses_cons {index index' : Nat} {above place : Place} :
    Encloses (index :: above) (index' :: place) ↔ index = index' ∧ Encloses above place := by
  simp only [Encloses, List.cons_append, List.cons.injEq, exists_and_left]
  exact and_congr_left' eq_comm

theorem isInside_iff {place : Place} :
    isInside skipped place = true ↔ ∃ above, skipped above = true ∧ Encloses above place := by
  induction place generalizing skipped with
  | nil => simp [isInside, Encloses]
  | cons index place ih =>
    rw [isInside, Bool.or_eq_true, ih]
    constructor
    · rintro (h | ⟨above, h, hencloses⟩)
      · exact ⟨[], h, index, place, rfl⟩
      · exact ⟨index :: above, h, encloses_cons.mpr ⟨rfl, hencloses⟩⟩
    · rintro ⟨_ | ⟨index', above⟩, h, hencloses⟩
      · exact .inl h
      · obtain ⟨rfl, hinner⟩ := encloses_cons.mp hencloses
        exact .inr ⟨above, h, hinner⟩

theorem key_inside (index : Nat) (stops : List Stop) :
    (stops.map (·.inside index)).map Stop.key =
      (stops.map Stop.key).map fun key => (index :: key.1, key.2) := by
  rw [List.map_map, List.map_map]
  rfl

theorem mem_keys_inside {index index' : Nat} {above : Place} {kind : Call.Kind}
    {stops : List Stop} :
    (index :: above, kind) ∈ (stops.map (·.inside index')).map Stop.key ↔
      index = index' ∧ (above, kind) ∈ stops.map Stop.key := by
  rw [key_inside, List.mem_map]
  constructor
  · rintro ⟨⟨place, kind'⟩, hmem, heq⟩
    cases heq
    exact ⟨rfl, hmem⟩
  · rintro ⟨rfl, hmem⟩
    exact ⟨_, hmem, rfl⟩

theorem exists_place_of_mem_keys {first : Nat} {parts : List Part} {above : Place}
    {kind : Call.Kind} (h : (above, kind) ∈ (toursFrom first parts).map Stop.key) :
    ∃ index place, above = index :: place ∧ first ≤ index := by
  obtain ⟨stop, hmem, heq⟩ := List.mem_map.mp h
  cases heq
  exact exists_place_of_mem_toursFrom hmem

theorem surrounds_iff_of_toursFrom {parts : List Part} {first : Nat}
    (h : ∀ part ∈ parts, ∀ {before stop after}, part.tour = before ++ stop :: after →
      ∀ above, Surrounds above before after ↔ Encloses above stop.place)
    {before after : List Stop} {stop : Stop}
    (heq : toursFrom first parts = before ++ stop :: after) (above : Place) :
    Surrounds above before after ↔ above ≠ [] ∧ Encloses above stop.place := by
  -- Nothing among these parts stands at the empty place.
  rcases above with _ | ⟨index, above⟩
  · refine iff_of_false ?_ (by simp)
    rintro ⟨henter, -⟩
    have hmem : ([], .enter) ∈ (toursFrom first parts).map Stop.key := by
      rw [heq, List.map_append]
      exact List.mem_append_left _ henter
    obtain ⟨index, place, hplace, -⟩ := exists_place_of_mem_keys hmem
    cases hplace
  simp only [ne_eq, reduceCtorEq, not_false_eq_true, true_and]
  induction parts generalizing first before with
  | nil => simp at heq
  | cons part parts ih =>
    have hrest : ∀ {middle}, toursFrom (first + 1) parts = middle ++ stop :: after →
        (Surrounds (index :: above) (part.tour.map (·.inside first) ++ middle) after ↔
          Encloses (index :: above) stop.place) := by
      intro middle hmiddle
      rw [← ih (fun part hpart => h part (by simp [hpart])) hmiddle]
      refine ⟨fun ⟨henter, hleave⟩ => ⟨?_, hleave⟩, fun ⟨henter, hleave⟩ => ⟨?_, hleave⟩⟩
      · rw [List.map_append, List.mem_append] at henter
        refine henter.resolve_left fun hfirst => ?_
        obtain ⟨rfl, -⟩ := mem_keys_inside.mp hfirst
        have hmem : (index :: above, .leave) ∈ (toursFrom (index + 1) parts).map Stop.key := by
          rw [hmiddle, List.map_append, List.map_cons]
          exact List.mem_append_right _ (List.mem_cons_of_mem _ hleave)
        obtain ⟨index', place, hplace, hle⟩ := exists_place_of_mem_keys hmem
        cases hplace
        omega
      · rw [List.map_append]
        exact List.mem_append_right _ henter
    rw [toursFrom_cons] at heq
    rcases List.append_eq_append_iff.mp heq with ⟨middle, rfl, hmiddle⟩ | ⟨middle, hfirst, hlater⟩
    · exact hrest hmiddle
    · rcases middle with _ | ⟨stop', middle⟩
      · have hnone : toursFrom (first + 1) parts = [] ++ stop :: after := hlater.symm
        rw [List.append_nil] at hfirst
        rw [← hfirst, ← hrest hnone, List.append_nil]
      · rw [List.cons_append] at hlater
        obtain ⟨rfl, rfl⟩ := List.cons.inj hlater
        obtain ⟨before, tail, htour, rfl, htail⟩ := List.map_eq_append_iff.mp hfirst
        obtain ⟨stop, after, rfl, rfl, rfl⟩ := List.map_eq_cons_iff.mp htail
        change _ ↔ Encloses (index :: above) (first :: stop.place)
        rw [encloses_cons, ← h part (by simp) htour above]
        simp only [Surrounds, List.map_append, List.mem_append, mem_keys_inside]
        constructor
        · rintro ⟨⟨rfl, henter⟩, ⟨-, hleave⟩ | hleave⟩
          · exact ⟨rfl, henter, hleave⟩
          · obtain ⟨index', place, hplace, hle⟩ := exists_place_of_mem_keys hleave
            cases hplace
            omega
        · rintro ⟨rfl, henter, hleave⟩
          exact ⟨⟨rfl, henter⟩, .inl ⟨rfl, hleave⟩⟩

theorem surrounds_iff_of_tour {part : Part} {before after : List Stop} {stop : Stop}
    (h : part.tour = before ++ stop :: after) (above : Place) :
    Surrounds above before after ↔ Encloses above stop.place := by
  induction part using Part.induction generalizing before stop after above with
  | value v =>
    rw [tour_value] at h
    obtain ⟨rfl, rfl, rfl⟩ : before = [] ∧ stop = ⟨[], .value v⟩ ∧ after = [] := by
      rcases before with _ | ⟨first, before⟩
      · cases h
        exact ⟨rfl, rfl, rfl⟩
      · simp at h
    simp [Surrounds, Encloses]
  | item item ih =>
    rw [tour_item] at h
    rcases before with _ | ⟨first, before⟩
    · -- Nothing surrounds entering the item itself.
      cases h
      simp [Surrounds, Encloses]
    rw [List.cons_append] at h
    obtain ⟨rfl, htail⟩ := List.cons.inj h
    rcases List.append_eq_append_iff.mp htail with ⟨middle, rfl, hlast⟩ | ⟨middle, hinside, hlater⟩
    · -- Nor does anything surround leaving it.
      rcases middle with _ | ⟨stop', middle⟩
      · cases hlast
        simp [Surrounds, Encloses]
      · simp at hlast
    rcases middle with _ | ⟨stop', middle⟩
    · cases hlater
      simp [Surrounds, Encloses]
    rw [List.cons_append] at hlater
    obtain ⟨rfl, rfl⟩ := List.cons.inj hlater
    have hmem : stop ∈ toursFrom 0 item.parts := by simp [hinside]
    obtain ⟨index, place, hplace, -⟩ := exists_place_of_mem_toursFrom hmem
    rcases above with _ | ⟨index', above⟩
    · -- The item itself surrounds all that is inside.
      rw [hplace]
      refine iff_of_true ⟨?_, ?_⟩ ⟨index, place, rfl⟩ <;> simp [Stop.key, Event.kind]
    · have hsurrounds := surrounds_iff_of_toursFrom (fun part hpart _ _ _ => ih part hpart) hinside
        (index' :: above)
      simp only [ne_eq, reduceCtorEq, not_false_eq_true, true_and] at hsurrounds
      rw [← hsurrounds]
      simp [Surrounds, Stop.key]

/-! ## What is outside -/

theorem outside_eq_filter {hidden : Stop → Bool} {earlier stops : List Stop}
    (h : ∀ before stop after, earlier ++ stops = before ++ stop :: after →
      isBetween skipped before after = hidden stop) :
    outside skipped earlier stops = stops.filter (!hidden ·) := by
  induction stops generalizing earlier with
  | nil => rfl
  | cons stop later ih =>
    rw [outside, h earlier stop later rfl, ih (by simpa using h), List.filter_cons]
    cases hidden stop <;> rfl

/-- The given places as far as they are in a sheet: at the empty one there is nothing. -/
def Sheet.within (skipped : Place → Bool) (place : Place) : Bool := place ≠ [] && skipped place

theorem Sheet.outside_tour (sheet : Sheet) (skipped : Place → Bool) :
    outside skipped [] sheet.tour =
      sheet.tour.filter fun stop => !isInside (within skipped) stop.place := by
  apply outside_eq_filter
  intro before stop after heq
  rw [Bool.eq_iff_iff, isBetween_iff, isInside_iff]
  apply exists_congr
  intro above
  rw [surrounds_iff_of_toursFrom (fun part _ _ _ _ => surrounds_iff_of_tour) heq]
  simp only [within, Bool.and_eq_true, decide_eq_true_eq]
  tauto

/-! ## What a walk visits -/

theorem stops_visitsFrom {parts : List Part} {first : Nat} {skipped : Place → Bool}
    (h : ∀ part ∈ parts, ∀ skipped, (part.visits (skippingAt skipped)).map Visit.stop =
      part.tour.filter fun stop => !isInside skipped stop.place)
    (hnone : skipped [] = false) :
    (visitsFrom first (skippingAt skipped) parts).map Visit.stop =
      (toursFrom first parts).filter fun stop => !isInside skipped stop.place := by
  induction parts generalizing first with
  | nil => rfl
  | cons part parts ih =>
    have hpart := h part (by simp) fun inner => skipped (first :: inner)
    have hinside : ∀ stop : Stop, isInside skipped (stop.inside first).place =
        isInside (fun inner => skipped (first :: inner)) stop.place := by
      intro stop
      change (skipped [] || _) = _
      rw [hnone, Bool.false_or]
    rw [visitsFrom_cons, toursFrom_cons, List.map_append, List.filter_append,
      ih fun part hmem => h part (by simp [hmem])]
    congr 1
    rw [List.filter_map]
    simp only [Function.comp_def, hinside]
    rw [← hpart, List.map_map, List.map_map]
    rfl

theorem stops_visits (part : Part) (skipped : Place → Bool) :
    (part.visits (skippingAt skipped)).map Visit.stop =
      part.tour.filter fun stop => !isInside skipped stop.place := by
  induction part using Part.induction generalizing skipped with
  | value v =>
    rw [visits_value, tour_value]
    rfl
  | item item ih =>
    rw [visits_item, tour_item, List.map_cons, List.map_append, List.filter_cons,
      List.filter_append]
    cases hskipped : skipped [] with
    | false =>
      have hanswer : skippingAt skipped [] item = .descend := by simp [skippingAt, hskipped]
      rw [hanswer, ← stops_visitsFrom ih hskipped, List.map_map]
      rfl
    | true =>
      have hanswer : skippingAt skipped [] item = .skipChildren := by simp [skippingAt, hskipped]
      have hnone : (toursFrom 0 item.parts).filter (fun stop => !isInside skipped stop.place) =
          [] := by
        rw [List.filter_eq_nil_iff]
        intro stop hmem
        obtain ⟨index, place, hplace, -⟩ := exists_place_of_mem_toursFrom hmem
        simp [hplace, isInside, hskipped]
      rw [hanswer, hnone]
      rfl

/-! ## Where a walk skips -/

/-- Where the visits enter an item, they have the answer that `answer` gives there. -/
def Agrees (answer : Place → Item → Action) (visits : List Visit) : Prop :=
  ∀ visit ∈ visits, ∀ item given, visit.call = .enter item given → answer visit.place item = given

section

variable {answer answer' : Place → Item → Action}

theorem agrees_visitsFrom_cons {first : Nat} {part : Part} {parts : List Part} :
    Agrees answer' (visitsFrom first answer (part :: parts)) ↔
      Agrees (fun place => answer' (first :: place))
          (part.visits fun place => answer (first :: place)) ∧
        Agrees answer' (visitsFrom (first + 1) answer parts) := by
  simp only [Agrees, visitsFrom_cons, List.forall_mem_append, List.forall_mem_map, Visit.under,
    List.singleton_append]

theorem agrees_visits_item {item : Item} :
    Agrees answer' ((Part.item item).visits answer) ↔
      answer' [] item = answer [] item ∧
        (answer [] item = .descend → Agrees answer' (visitsFrom 0 answer item.parts)) := by
  rw [visits_item]
  cases answer [] item <;>
    simp [Agrees, Visit.under, or_imp, forall_and]

theorem agrees_visitsFrom {parts : List Part} {first : Nat}
    (h : ∀ part ∈ parts, ∀ answer, Agrees answer (part.visits answer)) :
    Agrees answer (visitsFrom first answer parts) := by
  induction parts generalizing first with
  | nil => exact nofun
  | cons part parts ih =>
    exact agrees_visitsFrom_cons.mpr
      ⟨h part (by simp) _, ih fun part hmem => h part (by simp [hmem])⟩

theorem agrees_visits (part : Part) (answer : Place → Item → Action) :
    Agrees answer (part.visits answer) := by
  induction part using Part.induction generalizing answer with
  | value v => simp [Agrees, visits_value]
  | item item ih => exact agrees_visits_item.mpr ⟨rfl, fun _ => agrees_visitsFrom ih⟩

theorem Sheet.agrees_visits (sheet : Sheet) (answer : Place → Item → Action) :
    Agrees answer (sheet.visits answer) :=
  agrees_visitsFrom fun part _ => StyleScope.agrees_visits part

theorem visitsFrom_of_agrees {parts : List Part} {first : Nat}
    (hparts : ∀ part ∈ parts, ∀ {answer answer' : Place → Item → Action},
      Agrees answer' (part.visits answer) → part.visits answer = part.visits answer')
    (h : Agrees answer' (visitsFrom first answer parts)) :
    visitsFrom first answer parts = visitsFrom first answer' parts := by
  induction parts generalizing first with
  | nil => rfl
  | cons part parts ih =>
    obtain ⟨hpart, hrest⟩ := agrees_visitsFrom_cons.mp h
    rw [visitsFrom_cons, visitsFrom_cons, hparts part (by simp) hpart,
      ih (fun part hmem => hparts part (by simp [hmem])) hrest]

theorem visits_of_agrees {part : Part} (h : Agrees answer' (part.visits answer)) :
    part.visits answer = part.visits answer' := by
  induction part using Part.induction generalizing answer answer' with
  | value v => rw [visits_value, visits_value]
  | item item ih =>
    obtain ⟨hhere, hinside⟩ := agrees_visits_item.mp h
    rw [visits_item, visits_item, hhere]
    cases hanswer : answer [] item with
    | skipChildren => rfl
    | descend =>
      have hsame := visitsFrom_of_agrees (fun part hpart _ _ => ih part hpart) (hinside hanswer)
      simp only [hsame]

end

/-- Items are skipped at just the places `skipped`, as far as they are entered at all. -/
def SkipsAt (skipped : Place → Bool) (visits : List Visit) : Prop :=
  ∀ visit ∈ visits, ∀ item answer, visit.call = .enter item answer →
    (answer = .skipChildren ↔ skipped visit.place = true)

theorem skipsAt_iff {visits : List Visit} :
    SkipsAt skipped visits ↔ Agrees (skippingAt skipped) visits := by
  unfold SkipsAt Agrees skippingAt
  refine forall₅_congr fun visit _ item answer _ => ?_
  cases answer <;> cases skipped visit.place <;> simp

/-- A walk visits all of the tour but what is strictly inside the items that it skips. -/
theorem Sheet.stops_of_skipsAt {sheet : Sheet} {answer : Place → Item → Action}
    (h : SkipsAt skipped (sheet.visits answer)) :
    (sheet.visits answer).map Visit.stop = outside skipped [] sheet.tour := by
  have hanswer : sheet.visits answer = sheet.visits (skippingAt (within skipped)) := by
    apply visitsFrom_of_agrees fun part _ _ _ => visits_of_agrees
    intro visit hvisit item given hcall
    have hplace : visit.place ≠ [] := by
      obtain ⟨index, place, hplace, -⟩ := exists_place_of_mem_visitsFrom hvisit
      simp [hplace]
    have hsame : skippingAt (within skipped) visit.place item =
        skippingAt skipped visit.place item := by
      simp [skippingAt, within, hplace]
    rw [hsame]
    exact skipsAt_iff.mp h visit hvisit item given hcall
  rw [hanswer, outside_tour]
  exact stops_visitsFrom (fun part _ => stops_visits part) rfl

end StyleScope
