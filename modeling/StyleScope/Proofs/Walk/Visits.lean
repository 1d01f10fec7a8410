import StyleScope.Proofs.Walk.Parts

/-!
# The visits of a walk

Which callbacks a walk issues depends only on the tree and on what is answered where an item is
entered. Each of them is kept with its place, so that equal nodes in two places are told apart.
-/

namespace StyleScope

/-- A callback of a walk; what enters an item has an answer. -/
inductive Call where
  | enter (item : Item) (answer : Action)
  | leave (item : Item)
  | value (value : Value)

inductive Call.Kind where
  | enter
  | leave
  | value
deriving DecidableEq

namespace Call

def kind : Call → Kind
  | .enter .. => .enter
  | .leave _ => .leave
  | .value _ => .value

/-- What a callback is about. -/
def part : Call → Part
  | .enter item _ => .item item
  | .leave item => .item item
  | .value v => .value v

end Call

/-- Where something stands: for it and for each item around it, outermost first, its index among what
is directly inside the same item. -/
abbrev Place := List Nat

/-- A callback with the place of what it is about, and with the ancestors of that, outermost first. -/
structure Visit where
  place : Place
  around : List Item
  call : Call

/-- A visit as it is seen from further out. -/
def Visit.under (place : Place) (around : List Item) (visit : Visit) : Visit :=
  ⟨place ++ visit.place, around ++ visit.around, visit.call⟩

/-- The visits of a part; `answer` says what is answered at each place in it. -/
def Part.visits (answer : Place → Item → Action) : Part → List Visit
  | .value v => [⟨[], [], .value v⟩]
  | .item i =>
    ⟨[], [], .enter i (answer [] i)⟩ ::
      ((match answer [] i with
        | .descend =>
          i.parts.attach.zipIdx.flatMap fun (⟨part, _⟩, index) =>
            (part.visits fun place => answer (index :: place)).map (·.under [index] [i])
        | .skipChildren => []) ++ [⟨[], [], .leave i⟩])
termination_by part => sizeOf part
decreasing_by exact Item.sizeOf_lt_of_mem_parts ‹_›

/-- The visits of parts that stand next to each other, the first one at the index `first`. -/
def visitsFrom (first : Nat) (answer : Place → Item → Action) (parts : List Part) : List Visit :=
  (parts.zipIdx first).flatMap fun (part, index) =>
    (part.visits fun place => answer (index :: place)).map (·.under [index] [])

def Sheet.visits (answer : Place → Item → Action) (sheet : Sheet) : List Visit :=
  visitsFrom 0 answer sheet.parts

section

variable {answer : Place → Item → Action}

theorem visits_value (v : Value) : (Part.value v).visits answer = [⟨[], [], .value v⟩] := by
  rw [Part.visits]

theorem visits_item (item : Item) :
    (Part.item item).visits answer =
      ⟨[], [], .enter item (answer [] item)⟩ ::
        ((match answer [] item with
          | .descend => (visitsFrom 0 answer item.parts).map (·.under [] [item])
          | .skipChildren => []) ++ [⟨[], [], .leave item⟩]) := by
  rw [Part.visits]
  congr 2
  cases answer [] item with
  | descend =>
    simp only [visitsFrom, List.map_flatMap, List.map_map]
    conv_rhs => rw [← List.attach_map_subtype_val item.parts, List.zipIdx_map, List.flatMap_map]
    rfl
  | skipChildren => rfl

@[simp] theorem visitsFrom_nil (first : Nat) : visitsFrom first answer [] = [] := rfl

theorem visitsFrom_cons (first : Nat) (part : Part) (parts : List Part) :
    visitsFrom first answer (part :: parts) =
      (part.visits fun place => answer (first :: place)).map (·.under [first] []) ++
        visitsFrom (first + 1) answer parts := rfl

theorem mem_visitsFrom {first : Nat} {parts : List Part} {visit : Visit} :
    visit ∈ visitsFrom first answer parts ↔ ∃ part index, (part, index) ∈ parts.zipIdx first ∧
      ∃ inner ∈ part.visits fun place => answer (index :: place), inner.under [index] [] = visit := by
  simp only [visitsFrom, List.mem_flatMap, Prod.exists, List.mem_map]

theorem visitsFrom_congr {answer' : Place → Item → Action} {first : Nat} {parts : List Part}
    (h : ∀ index place, first ≤ index → answer (index :: place) = answer' (index :: place)) :
    visitsFrom first answer parts = visitsFrom first answer' parts := by
  induction parts generalizing first with
  | nil => rfl
  | cons part parts ih =>
    rw [visitsFrom_cons, visitsFrom_cons, ih fun index place hle => h index place (by omega)]
    simp only [h first _ (Nat.le_refl first)]

/-! ## What stands at a place -/

/-- What stands at a place inside a part. -/
def Part.at? : Place → Part → Option Part
  | [], part => some part
  | index :: place, .item i => i.parts[index]?.bind (Part.at? place)
  | _ :: _, .value _ => none

def Sheet.at? (sheet : Sheet) : Place → Option Part
  | [] => none
  | index :: place => sheet.parts[index]?.bind (Part.at? place)

theorem at?_of_mem_visits {part : Part} {visit : Visit} (h : visit ∈ part.visits answer) :
    part.at? visit.place = some visit.call.part := by
  induction part using Part.induction generalizing answer visit with
  | value v =>
    simp only [visits_value, List.mem_singleton] at h
    rw [h]
    rfl
  | item item ih =>
    rw [visits_item] at h
    simp only [List.mem_cons, List.mem_append, List.not_mem_nil, or_false] at h
    rcases h with rfl | h | rfl
    · rfl
    · split at h
      · obtain ⟨outer, houter, rfl⟩ := List.mem_map.mp h
        obtain ⟨part, index, hpart, inner, hinner, rfl⟩ := mem_visitsFrom.mp houter
        have hget := List.mem_zipIdx_iff_getElem?.mp hpart
        simp only [Visit.under, List.nil_append, List.singleton_append, Part.at?, hget, Option.bind_some]
        exact ih part (List.mem_of_getElem? hget) hinner
      · simp at h
    · rfl

theorem Sheet.at?_of_mem_visits {sheet : Sheet} {visit : Visit} (h : visit ∈ sheet.visits answer) :
    sheet.at? visit.place = some visit.call.part := by
  obtain ⟨part, index, hpart, inner, hinner, rfl⟩ := mem_visitsFrom.mp h
  have hget := List.mem_zipIdx_iff_getElem?.mp hpart
  simp only [Visit.under, List.singleton_append, Sheet.at?, hget, Option.bind_some]
  exact StyleScope.at?_of_mem_visits hinner

/-! ## No visit comes twice -/

/-- The place of a visit, and whether it enters or leaves what is there. -/
def Visit.key (visit : Visit) : Place × Call.Kind := (visit.place, visit.call.kind)

theorem exists_place_of_mem_visitsFrom {first : Nat} {parts : List Part} {visit : Visit}
    (h : visit ∈ visitsFrom first answer parts) :
    ∃ index place, visit.place = index :: place ∧ first ≤ index := by
  obtain ⟨part, index, hpart, inner, -, rfl⟩ := mem_visitsFrom.mp h
  exact ⟨index, inner.place, rfl, List.le_snd_of_mem_zipIdx hpart⟩

theorem nodup_visitsFrom {first : Nat} {parts : List Part}
    (h : ∀ part ∈ parts, ∀ answer, ((part.visits answer).map Visit.key).Nodup) :
    ((visitsFrom first answer parts).map Visit.key).Nodup := by
  induction parts generalizing first with
  | nil => simp
  | cons part parts ih =>
    rw [visitsFrom_cons, List.map_append, List.map_map, List.nodup_append']
    refine ⟨?_, ih fun part hpart => h part (by simp [hpart]), ?_⟩
    · have hinj : Function.Injective fun key : Place × Call.Kind => (first :: key.1, key.2) := by
        rintro ⟨place, kind⟩ ⟨place', kind'⟩ heq
        simpa using heq
      have hmap := (h part (by simp) fun place => answer (first :: place)).map hinj
      rw [List.map_map] at hmap
      exact hmap
    · -- The first index tells the visits of this part from those of the parts after it.
      intro key hfirst hrest
      obtain ⟨inner, -, rfl⟩ := List.mem_map.mp hfirst
      obtain ⟨visit, hvisit, hkey⟩ := List.mem_map.mp hrest
      obtain ⟨index, place, hplace, hle⟩ := exists_place_of_mem_visitsFrom hvisit
      simp only [Visit.key, Function.comp_apply, Visit.under, List.singleton_append, hplace, Prod.mk.injEq,
        List.cons.injEq] at hkey
      omega

theorem nodup_visits (part : Part) (answer : Place → Item → Action) :
    ((part.visits answer).map Visit.key).Nodup := by
  induction part using Part.induction generalizing answer with
  | value v => simp [visits_value]
  | item item ih =>
    rw [visits_item]
    split
    · have hinside : ∀ visit ∈ visitsFrom 0 answer item.parts, visit.place ≠ [] := by
        intro visit hvisit
        obtain ⟨index, place, hplace, -⟩ := exists_place_of_mem_visitsFrom hvisit
        simp [hplace]
      have hkeys : ((visitsFrom 0 answer item.parts).map (·.under [] [item])).map Visit.key =
          (visitsFrom 0 answer item.parts).map Visit.key := by
        rw [List.map_map]
        rfl
      rw [List.map_cons, List.map_append, hkeys, List.nodup_cons, List.nodup_append']
      refine ⟨?_, nodup_visitsFrom fun part hpart => ih part hpart, by simp, ?_⟩
      · simp only [List.mem_append, List.mem_map, not_or, not_exists, not_and]
        refine ⟨fun visit hvisit hkey => hinside visit hvisit (congrArg Prod.fst hkey), ?_⟩
        simp [Visit.key, Call.kind]
      · intro key hkey hleave
        obtain ⟨visit, hvisit, rfl⟩ := List.mem_map.mp hkey
        simp only [List.map_cons, List.map_nil, List.mem_singleton] at hleave
        exact hinside visit hvisit (congrArg Prod.fst hleave)
    · simp [Visit.key, Call.kind]

end

end StyleScope
