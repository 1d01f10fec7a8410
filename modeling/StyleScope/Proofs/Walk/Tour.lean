import StyleScope.Proofs.Walk.Visits
import StyleScope.Walk.Record

/-!
# The whole tour of a tree

A tour enters and leaves every item and passes every value, in document order. What a walk leaves
out of it where it skips an item is what lies strictly between entering and leaving that item.
-/

namespace StyleScope

/-- What a callback is about and what it does, whatever is answered. -/
def Call.event : Call → Event
  | .enter item _ => .enter item
  | .leave item => .leave item
  | .value v => .value v

namespace Event

def kind : Event → Call.Kind
  | .enter _ => .enter
  | .leave _ => .leave
  | .value _ => .value

def part : Event → Part
  | .enter item => .item item
  | .leave item => .item item
  | .value v => .value v

end Event

/-- An event with its place. -/
structure Stop where
  place : Place
  event : Event

namespace Stop

def key (stop : Stop) : Place × Call.Kind := (stop.place, stop.event.kind)

/-- A stop as it is seen from the item around it. -/
def inside (index : Nat) (stop : Stop) : Stop := ⟨index :: stop.place, stop.event⟩

end Stop

def Visit.stop (visit : Visit) : Stop := ⟨visit.place, visit.call.event⟩

/-- All that there is in a part, in document order. -/
def Part.tour : Part → List Stop
  | .value v => [⟨[], .value v⟩]
  | .item i =>
    ⟨[], .enter i⟩ ::
      ((i.parts.attach.zipIdx.flatMap fun (⟨part, _⟩, index) => part.tour.map (·.inside index)) ++
        [⟨[], .leave i⟩])
termination_by part => sizeOf part
decreasing_by exact Item.sizeOf_lt_of_mem_parts ‹_›

/-- The tours of parts that stand next to each other, the first one at the index `first`. -/
def toursFrom (first : Nat) (parts : List Part) : List Stop :=
  (parts.zipIdx first).flatMap fun (part, index) => part.tour.map (·.inside index)

/-- The document-order flattening of a sheet. -/
def Sheet.tour (sheet : Sheet) : List Stop := toursFrom 0 sheet.parts

theorem tour_value (v : Value) : (Part.value v).tour = [⟨[], .value v⟩] := by
  rw [Part.tour]

theorem tour_item (item : Item) :
    (Part.item item).tour =
      ⟨[], .enter item⟩ :: (toursFrom 0 item.parts ++ [⟨[], .leave item⟩]) := by
  rw [Part.tour]
  unfold toursFrom
  conv_rhs => rw [← List.attach_map_subtype_val item.parts, List.zipIdx_map, List.flatMap_map]
  rfl

@[simp] theorem toursFrom_nil (first : Nat) : toursFrom first [] = [] := rfl

theorem toursFrom_cons (first : Nat) (part : Part) (parts : List Part) :
    toursFrom first (part :: parts) =
      part.tour.map (·.inside first) ++ toursFrom (first + 1) parts := rfl

theorem mem_toursFrom {first : Nat} {parts : List Part} {stop : Stop} :
    stop ∈ toursFrom first parts ↔ ∃ part index, (part, index) ∈ parts.zipIdx first ∧
      ∃ inner ∈ part.tour, inner.inside index = stop := by
  simp only [toursFrom, List.mem_flatMap, Prod.exists, List.mem_map]

theorem exists_place_of_mem_toursFrom {first : Nat} {parts : List Part} {stop : Stop}
    (h : stop ∈ toursFrom first parts) :
    ∃ index place, stop.place = index :: place ∧ first ≤ index := by
  obtain ⟨part, index, hpart, inner, -, rfl⟩ := mem_toursFrom.mp h
  exact ⟨index, inner.place, rfl, List.le_snd_of_mem_zipIdx hpart⟩

/-! ## What a tour comes to -/

theorem mem_tour_iff {part : Part} {place : Place} {event : Event} :
    ⟨place, event⟩ ∈ part.tour ↔ part.at? place = some event.part := by
  induction part using Part.induction generalizing place with
  | value v =>
    rw [tour_value, List.mem_singleton]
    cases place with
    | nil => cases event <;> simp [Part.at?, Event.part, eq_comm]
    | cons index place => simp [Part.at?]
  | item item ih =>
    rw [tour_item]
    cases place with
    | nil =>
      have hnot : ⟨[], event⟩ ∉ toursFrom 0 item.parts := by
        intro hmem
        obtain ⟨index, place, hplace, -⟩ := exists_place_of_mem_toursFrom hmem
        cases hplace
      cases event <;> simp [hnot, Part.at?, Event.part, eq_comm]
    | cons index place =>
      have hinside : ⟨index :: place, event⟩ ∈ toursFrom 0 item.parts ↔
          ∃ part, item.parts[index]? = some part ∧ ⟨place, event⟩ ∈ part.tour := by
        rw [mem_toursFrom]
        simp only [List.mk_mem_zipIdx_iff_getElem?]
        constructor
        · rintro ⟨part, _, hget, ⟨place, event⟩, hmem, heq⟩
          cases heq
          exact ⟨part, hget, hmem⟩
        · rintro ⟨part, hget, hmem⟩
          exact ⟨part, index, hget, _, hmem, rfl⟩
      simp only [List.mem_cons, List.mem_append, hinside, Stop.mk.injEq, reduceCtorEq, false_and,
        false_or, List.not_mem_nil, or_false, Part.at?, Option.bind_eq_some_iff]
      apply exists_congr
      intro part
      apply and_congr_right
      intro hget
      exact ih part (List.mem_of_getElem? hget)

theorem Sheet.mem_tour_iff {sheet : Sheet} {place : Place} {event : Event} :
    ⟨place, event⟩ ∈ sheet.tour ↔ sheet.at? place = some event.part := by
  cases place with
  | nil =>
    refine iff_of_false ?_ nofun
    intro hmem
    obtain ⟨index, place, hplace, -⟩ := exists_place_of_mem_toursFrom hmem
    cases hplace
  | cons index place =>
    rw [tour, mem_toursFrom, at?, Option.bind_eq_some_iff]
    simp only [List.mk_mem_zipIdx_iff_getElem?]
    constructor
    · rintro ⟨part, _, hget, ⟨place, event⟩, hmem, heq⟩
      cases heq
      exact ⟨part, hget, StyleScope.mem_tour_iff.mp hmem⟩
    · rintro ⟨part, hget, hat⟩
      exact ⟨part, index, hget, _, StyleScope.mem_tour_iff.mpr hat, rfl⟩

end StyleScope
