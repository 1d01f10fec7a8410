import StyleScope.Proofs.Walk.Pruning

/-!
# The values that a walk comes to

A visitor that is called for values only is called for those of constants, declarations and at-rules
in document order. A visitor that is called for everything and descends everywhere comes to the same
values, each at the one place where it stands.
-/

namespace StyleScope

/-! ## Values in document order -/

mutual

/-- The values in a node. The params of an at-rule come before what is in its block. -/
def Node.values : Node → List Value
  | .conditionalBlock branches _ => branchesValues branches
  | .definition _ values _ => values
  | .atRule _ params none _ => params
  | .atRule _ params (some nodes) _ => params ++ nodesValues nodes
  | .ruleset _ children _ => nodesValues children
  | .declaration _ values _ => values

def Branch.values : Branch → List Value
  | ⟨_, _, children, _⟩ => nodesValues children

def nodesValues : List Node → List Value
  | [] => []
  | node :: nodes => node.values ++ nodesValues nodes

def branchesValues : List Branch → List Value
  | [] => []
  | branch :: branches => branch.values ++ branchesValues branches

end

def Sheet.values (sheet : Sheet) : List Value := nodesValues sheet.nodes

def Part.values : Part → List Value
  | .item (.node node) => node.values
  | .item (.branch branch) => branch.values
  | .value v => [v]

theorem nodesValues_append (first rest : List Node) :
    nodesValues (first ++ rest) = nodesValues first ++ nodesValues rest := by
  induction first with
  | nil => rfl
  | cons node first ih => rw [List.cons_append, nodesValues, nodesValues, ih, List.append_assoc]

theorem values_of_values (values : List Value) :
    (values.map Part.value).flatMap Part.values = values := by
  rw [List.flatMap_map]
  exact List.flatMap_singleton' values

theorem values_of_nodes (nodes : List Node) :
    (nodes.map Part.ofNode).flatMap Part.values = nodesValues nodes := by
  induction nodes with
  | nil => rfl
  | cons node nodes ih => rw [List.map_cons, List.flatMap_cons, ih, nodesValues]; rfl

theorem values_of_branches (branches : List Branch) :
    (branches.map Part.ofBranch).flatMap Part.values = branchesValues branches := by
  induction branches with
  | nil => rfl
  | cons branch branches ih => rw [List.map_cons, List.flatMap_cons, ih, branchesValues]; rfl

theorem values_item (item : Item) : (Part.item item).values = item.parts.flatMap Part.values := by
  match item with
  | .branch ⟨kind, condition, children, location⟩ => exact (values_of_nodes children).symm
  | .node (.conditionalBlock branches location) => exact (values_of_branches branches).symm
  | .node (.definition name values location) => exact (values_of_values values).symm
  | .node (.atRule name params none location) =>
    simp only [Part.values, Node.values, Item.parts, Option.getD_none, List.map_nil,
      List.append_nil, values_of_values]
  | .node (.atRule name params (some nodes) location) =>
    simp only [Part.values, Node.values, Item.parts, Option.getD_some, List.flatMap_append,
      values_of_values, values_of_nodes]
  | .node (.ruleset selectors children location) => exact (values_of_nodes children).symm
  | .node (.declaration property values location) => exact (values_of_values values).symm

theorem Sheet.values_eq (sheet : Sheet) : sheet.values = sheet.parts.flatMap Part.values :=
  (values_of_nodes sheet.nodes).symm

/-! ## Visitors that are called for values only -/

namespace Visitor

variable {m : Type → Type} [Monad m] [LawfulMonad m] (deliver : Value → m Unit)

/-- Is called for values and lets the walk pass everything else. -/
def forValues : Visitor m where
  value := deliver

theorem forValues_walkParts {parts : List Part}
    (h : ∀ part ∈ parts, (forValues deliver).walkPart part = part.values.forM deliver) :
    (forValues deliver).walkParts parts = (parts.flatMap Part.values).forM deliver := by
  induction parts with
  | nil => rfl
  | cons part parts ih =>
    obtain ⟨hpart, hparts⟩ := List.forall_mem_cons.mp h
    rw [walkParts_cons, hpart, ih hparts, List.flatMap_cons]
    exact List.forM_append.symm

theorem forValues_walkPart (part : Part) :
    (forValues deliver).walkPart part = part.values.forM deliver := by
  induction part using Part.induction with
  | value v => exact bind_pure_unit.symm
  | item item ih =>
    have henter : (forValues deliver).enter item = pure .descend := rfl
    have hleave : (forValues deliver).leave item = pure () := rfl
    rw [walkPart_item, visit, henter, hleave, pure_bind]
    change (do (forValues deliver).walkParts item.parts; pure ()) = _
    rw [bind_pure_unit, forValues_walkParts deliver ih, values_item]

theorem forValues_walkSheet (sheet : Sheet) :
    (forValues deliver).walkSheet sheet = sheet.values.forM deliver := by
  rw [walkSheet_eq, sheet.values_eq]
  exact forValues_walkParts deliver fun part _ => forValues_walkPart deliver part

end Visitor

/-! ## Visitors that are called for everything -/

/-- The value that an event passes. -/
def Event.value? : Event → Option Value
  | .value v => some v
  | .enter _ => none
  | .leave _ => none

/-- The value at a stop, with its place. -/
def Stop.placed? (stop : Stop) : Option (Place × Value) := stop.event.value?.map (stop.place, ·)

theorem values_toursFrom {first : Nat} {parts : List Part}
    (h : ∀ part ∈ parts, part.tour.filterMap (·.event.value?) = part.values) :
    (toursFrom first parts).filterMap (·.event.value?) = parts.flatMap Part.values := by
  induction parts generalizing first with
  | nil => rfl
  | cons part parts ih =>
    obtain ⟨hpart, hparts⟩ := List.forall_mem_cons.mp h
    rw [toursFrom_cons, List.filterMap_append, ih hparts, List.filterMap_map, List.flatMap_cons,
      ← hpart]
    rfl

theorem values_tour (part : Part) : part.tour.filterMap (·.event.value?) = part.values := by
  induction part using Part.induction with
  | value v =>
    rw [tour_value]
    rfl
  | item item ih =>
    have hinside : (toursFrom 0 item.parts).filterMap (·.event.value?) =
        item.parts.flatMap Part.values := values_toursFrom ih
    rw [tour_item, values_item, ← hinside, List.filterMap_cons_none rfl, List.filterMap_append]
    exact List.append_nil _

namespace Sheet

theorem tour_values (sheet : Sheet) : sheet.tour.filterMap (·.event.value?) = sheet.values := by
  rw [values_eq]
  exact values_toursFrom fun part _ => values_tour part

theorem recorder_tour (sheet : Sheet) :
    ∃ log, (Visitor.recorder fun _ _ => .descend).walkSheet sheet {} = pure ((), log) ∧
      log.events.toList = sheet.tour.map (·.event) := by
  obtain ⟨answer, moments, log, -, hwalk, hcalls, hruns⟩ :=
    Visitor.exists_walk (Visitor.recorder fun _ _ => .descend) sheet {}
  have hskips : SkipsAt (sheet.placesOf fun _ => false) (sheet.visits answer) :=
    Visitor.skipsAt_placesOf (fun _ _ => rfl) hruns hcalls
  have hnone : ∀ place, sheet.placesOf (fun _ => false) place = false := by
    intro place
    unfold placesOf
    split <;> rfl
  refine ⟨log, hwalk, ?_⟩
  have hevents : log.events.toList = (moments.map (·.call)).map Call.event := by
    rw [hruns.recorded.1, List.map_map]
    rfl
  rw [hevents, hcalls, ← outside_none hnone, ← stops_of_skipsAt hskips, List.map_map, List.map_map]
  rfl

theorem recorder_values (sheet : Sheet) :
    ∃ log, (Visitor.recorder fun _ _ => .descend).walkSheet sheet {} = pure ((), log) ∧
      log.events.toList.filterMap Event.value? = sheet.values := by
  obtain ⟨log, hwalk, hevents⟩ := sheet.recorder_tour
  refine ⟨log, hwalk, ?_⟩
  rw [hevents, List.filterMap_map, ← sheet.tour_values]
  rfl

/-! ## Each value once -/

/-- The values of a sheet with their places. -/
def placedValues (sheet : Sheet) : List (Place × Value) := sheet.tour.filterMap Stop.placed?

theorem map_snd_placedValues (sheet : Sheet) : sheet.placedValues.map Prod.snd = sheet.values := by
  rw [placedValues, List.map_filterMap, ← tour_values]
  congr 1
  funext stop
  unfold Stop.placed?
  cases stop.event.value? <;> rfl

theorem mem_placedValues {sheet : Sheet} {place : Place} {v : Value} :
    (place, v) ∈ sheet.placedValues ↔ sheet.at? place = some (.value v) := by
  have hplaced : ∀ stop : Stop, stop.placed? = some (place, v) ↔ stop = ⟨place, .value v⟩ := by
    rintro ⟨place', event⟩
    cases event <;> simp [Stop.placed?, Event.value?]
  rw [placedValues, List.mem_filterMap]
  simp only [hplaced, exists_eq_right]
  exact mem_tour_iff

theorem nodup_placedValues (sheet : Sheet) : (sheet.placedValues.map Prod.fst).Nodup := by
  have hkind : ∀ {stop : Stop} {placed}, stop.placed? = some placed →
      stop.key = (placed.1, .value) := by
    rintro ⟨place, event⟩ placed h
    cases event with
    | value v =>
      cases h
      rfl
    | _ => cases h
  have hkeys := sheet.nodup_tour
  rw [List.Nodup, List.pairwise_map] at hkeys ⊢
  rw [placedValues, List.pairwise_filterMap]
  refine hkeys.imp fun hkey placed hplaced placed' hplaced' hsame => ?_
  apply hkey
  rw [hkind hplaced, hkind hplaced', hsame]

end Sheet

/-! ## Deliveries -/

theorem forM_push (values : List Value) (seen : Array Value) :
    values.forM (fun v => (modify (·.push v) : StateM (Array Value) Unit)) seen =
      pure ((), seen ++ values.toArray) := by
  induction values generalizing seen with
  | nil => simp [List.forM, pure, StateT.pure]
  | cons v values ih =>
    have hpush : seen.push v ++ values.toArray = seen ++ (v :: values).toArray := by
      apply Array.toList_inj.mp
      rw [Array.toList_append, Array.toList_append, Array.toList_push, List.append_assoc]
      rfl
    rw [← hpush]
    exact ih (seen.push v)

/-- A walk of these nodes comes to these values, in this order and to no others. -/
structure DeliversValues (nodes : List Node) (values : List Value) : Prop where
  /-- A visitor that is called for values only does with these what it does with a value. -/
  alone : ∀ {σ : Type} (deliver : Value → StateM σ Unit),
    (Visitor.forValues deliver).walkNodes nodes = values.forM deliver
  /-- If it writes down what it is called for, it writes down these. -/
  received : Visitor.valueRecorder.walkNodes nodes #[] = pure ((), values.toArray)
  /-- They are the values among all that a visitor writes down that descends everywhere. -/
  recorded : ∃ log, (Visitor.recorder fun _ _ => .descend).walkNodes nodes {} = pure ((), log) ∧
    log.events.toList.filterMap Event.value? = values
  /-- They stand at different places, and no value stands anywhere else. -/
  placed : ∃ delivered : List (Place × Value), delivered.map Prod.snd = values ∧
    (delivered.map Prod.fst).Nodup ∧
      ∀ place v, (place, v) ∈ delivered ↔ (Sheet.mk "" nodes).at? place = some (.value v)

theorem deliversValues_nodes (nodes : List Node) : DeliversValues nodes (nodesValues nodes) where
  alone deliver := Visitor.forValues_walkSheet deliver ⟨"", nodes⟩
  received := by
    have hwalk := Visitor.forValues_walkSheet
      (fun v => (modify (·.push v) : StateM (Array Value) Unit)) ⟨"", nodes⟩
    have hpush := forM_push (nodesValues nodes) #[]
    rw [Array.empty_append] at hpush
    exact (congrFun hwalk #[]).trans hpush
  recorded := Sheet.recorder_values ⟨"", nodes⟩
  placed := ⟨Sheet.placedValues ⟨"", nodes⟩, Sheet.map_snd_placedValues _,
    Sheet.nodup_placedValues _, fun _ _ => Sheet.mem_placedValues⟩

theorem nodesValues_flatten (ranges : List (List Node)) :
    nodesValues ranges.flatten = ranges.flatMap nodesValues := by
  induction ranges with
  | nil => rfl
  | cons range ranges ih =>
    rw [List.flatten_cons, nodesValues_append, ih, List.flatMap_cons]

/-- A walk comes to the values of the constants, the declarations and the at-rules in document
order, to each once, also where it walks a range of the nodes. -/
theorem values_delivered :
    (∀ (sheet : Sheet) {m : Type → Type} [Monad m] (visitor : Visitor m),
      visitor.walkSheet sheet = visitor.walkNodes sheet.nodes) ∧
    (∀ sheet : Sheet, DeliversValues sheet.nodes sheet.values) ∧
    (∀ range : List Node, DeliversValues range (nodesValues range)) ∧
    ∀ (name : String) (ranges : List (List Node)),
      Sheet.values ⟨name, ranges.flatten⟩ = ranges.flatMap nodesValues := by
  refine ⟨?_, ?_, deliversValues_nodes, ?_⟩
  · intro sheet m _ visitor
    rfl
  · intro sheet
    exact deliversValues_nodes sheet.nodes
  · intro name ranges
    exact nodesValues_flatten ranges

end StyleScope
