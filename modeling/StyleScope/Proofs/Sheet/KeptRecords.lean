import StyleScope.Proofs.Sheet.Keeping

/-!
# Records are read alike

Each record is read alike where its fields are kept, be it an object or a list. So all that is alike
is read alike, by induction on the edits further inside.
-/

namespace StyleScope

open Json (Mismatch Shape Member Alike valuesOf)

/-! ## Objects and lists -/

/-- Both are objects, or both are lists of the same length. -/
inductive SameForm : Json → Json → Prop
  | objects (members members' : List Member) : SameForm (.object members) (.object members')
  | lists {items items' : List Json} (h : items.length = items'.length) :
      SameForm (.list items) (.list items')

namespace Json

variable {α : Type}

theorem map_fst_zip_sublist (names : List String) (items : List Json) :
    ((names.zip items).map Prod.fst).Sublist names := by
  induction names generalizing items with
  | nil => simp
  | cons name names ih =>
    cases items with
    | nil => simp
    | cons item items => exact (ih items).cons_cons name

theorem length_valuesOf_zip_le {names : List String} (h : names.Nodup) (items : List Json)
    (name : String) : (valuesOf (names.zip items) name).length ≤ 1 := by
  rw [length_valuesOf]
  exact List.nodup_iff_count_le_one.mp (h.sublist (map_fst_zip_sublist names items)) name

theorem Shape.ofItems_eq_ok_iff {shape : Shape α} {name : String} {items : List Json} {value : α} :
    shape.ofItems name items = .ok value ↔
      shape.gather (firstNamed (shape.fields.zip items)) (tooShort name shape.fields) = .all value ∧
        items.length ≤ shape.fields.length := by
  unfold ofItems
  cases shape.gather (firstNamed (shape.fields.zip items)) (tooShort name shape.fields) with
  | all found =>
    by_cases hlength : items.length ≤ shape.fields.length
    · simp [Gathered.toExcept, bind, Except.bind, hlength, pure, Except.pure]
    · simp [Gathered.toExcept, bind, Except.bind, hlength, throw, throwThe, MonadExceptOf.throw]
  | wrong index what => simp [Gathered.toExcept, bind, Except.bind]
  | lacking what => simp [Gathered.toExcept, bind, Except.bind]

theorem Shape.Obeys.read {fields : List Field} {shape : Shape α} (h : shape.Obeys fields)
    (hnames : shape.fields = fields.map Field.name) (hnodup : (fields.map Field.name).Nodup)
    {name : String} {json json' : Json} {value : α} (hform : SameForm json json')
    (hkept : ∀ field ∈ fields, field.KeptIn (viewOf fields json) (viewOf fields json'))
    (hread : shape.read name json = .ok value) : shape.read name json' = .ok value := by
  cases hform with
  | objects members members' =>
    obtain ⟨hlengths, hgather⟩ := ofMembers_eq_ok_iff.mp hread
    have hfields : ∀ field ∈ fields, (valuesOf members field.name).length ≤ 1 := by
      intro field hfield
      apply hlengths
      rw [hnames]
      exact List.mem_map_of_mem hfield
    refine ofMembers_eq_ok_iff.mpr ⟨?_, h ?_ hgather⟩
    · rw [hnames]
      simp only [List.mem_map]
      rintro _ ⟨field, hfield, rfl⟩
      exact (hkept field hfield (hfields field hfield)).1
    · intro field hfield
      rw [firstNamed_snd, firstNamed_snd]
      exact (hkept field hfield (hfields field hfield)).2
  | lists hlength =>
    obtain ⟨hgather, hle⟩ := ofItems_eq_ok_iff.mp hread
    refine ofItems_eq_ok_iff.mpr ⟨h ?_ hgather, hlength ▸ hle⟩
    intro field hfield
    rw [firstNamed_snd, firstNamed_snd, hnames]
    exact (hkept field hfield (length_valuesOf_zip_le hnodup _ _)).2

end Json

/-! ## The shapes of records -/

theorem Position.respects : (Expected.one .position).Respects ofJson :=
  fun _ _ value h => h.keeps value

theorem Location.respects : (Expected.one .location).Respects ofJson :=
  fun _ _ value h => h.keeps value

theorem respects_values : (Expected.many .value).Respects (Json.asList Value.ofJson) :=
  Json.respects_asList fun h => h _

theorem respects_nodes : (Expected.many .node).Respects (Json.asList Node.ofJson) :=
  Json.respects_asList fun h hread => (h _ hread).1

theorem respects_branches :
    (Expected.many .branch).Respects (Json.asList (Branch.ofJson Node.ofJson)) :=
  Json.respects_asList fun h => h _

theorem obeys_optionalLocation : optionalLocation.Obeys [Field.optionalLocation] :=
  Shape.obeys_optional "location" none (Json.respects_asOption Location.respects) rfl

theorem obeys_requiredLocation : requiredLocation.Obeys [Field.requiredLocation] :=
  Shape.obeys_required "location" Location.respects

theorem obeys_optionalValues (name : String) :
    (optionalValues name).Obeys [.optionalList name .value] :=
  Shape.obeys_optional name [] respects_values rfl

theorem obeys_optionalNodes : (optionalNodes Node.ofJson).Obeys [.optionalList "children" .node] :=
  Shape.obeys_optional "children" [] respects_nodes rfl

theorem Position.obeys_shape : shape.Obeys Record.position.fields :=
  (((Shape.obeys_required "line" Json.respects_asWord).map _).seq
    (Shape.obeys_required "column" Json.respects_asWord)).seq
    (Shape.obeys_required "offset" Json.respects_asWord)

theorem Location.obeys_shape : shape.Obeys Record.location.fields :=
  ((Shape.obeys_required "begin" Position.respects).map _).seq
    (Shape.obeys_required "end" Position.respects)

theorem Value.obeys_shape : shape.Obeys Record.value.fields :=
  ((Shape.obeys_required "text" Json.respects_asString).map _).seq obeys_optionalLocation

theorem Branch.obeys_shape : (shape Node.ofJson).Obeys Record.branch.fields :=
  ((((Shape.obeys_required "kind" Branch.Kind.respects).map _).seq
    (Shape.obeys_optional "condition" none (Json.respects_asOption Json.respects_asString) rfl)).seq
    obeys_optionalNodes).seq obeys_requiredLocation

theorem Node.obeys_shape (kind : Kind) : (shape Node.ofJson kind).Obeys kind.fields := by
  cases kind with
  | conditionalBlock =>
    exact ((Shape.obeys_required "rules" respects_branches).map _).seq obeys_optionalLocation
  | definition =>
    exact (((Shape.obeys_required "name" Json.respects_asString).map _).seq
      (obeys_optionalValues "values")).seq obeys_requiredLocation
  | atRule =>
    exact ((((Shape.obeys_required "name" Json.respects_asString).map _).seq
      (obeys_optionalValues "params")).seq
      (Shape.obeys_optional "block" none (Json.respects_asOption respects_nodes) rfl)).seq
      obeys_requiredLocation
  | ruleset =>
    exact (((Shape.obeys_required "selectors" Json.respects_strings).map _).seq
      obeys_optionalNodes).seq obeys_optionalLocation
  | declaration =>
    exact (((Shape.obeys_required "property" Json.respects_asString).map _).seq
      (obeys_optionalValues "values")).seq obeys_optionalLocation

/-! ## Fields that are there -/

namespace Field.KeptIn

variable {field : Field} {members members' : List Member}

theorem congr {others others' : List Member}
    (h : valuesOf members field.name = valuesOf others field.name)
    (h' : valuesOf members' field.name = valuesOf others' field.name)
    (hkept : field.KeptIn members members') : field.KeptIn others others' := by
  unfold KeptIn at hkept ⊢
  rwa [← h, ← h']

theorem exists_value (hkept : field.KeptIn members members') (hdefault : field.default? = none)
    {json : Json} (hvalue : valuesOf members field.name = [json]) :
    ∃ json', valuesOf members' field.name = [json'] ∧ field.holds.Kept json json' := by
  obtain ⟨hlength, hfield⟩ := hkept (by rw [hvalue]; exact Nat.le_refl 1)
  rw [hvalue] at hfield
  rcases hvalues : valuesOf members' field.name with _ | ⟨json', _ | ⟨second, rest⟩⟩
  · rw [hvalues] at hfield
    cases hdefault.symm.trans hfield
  · rw [hvalues] at hfield
    exact ⟨json', rfl, hfield⟩
  · simp [hvalues] at hlength

theorem required {p : Json → Prop} (hkept : field.KeptIn members members')
    (hdefault : field.default? = none)
    (hp : ∀ json json', field.holds.Kept json json' → p json → p json')
    (h : Json.Required members field.name p) : Json.Required members' field.name p := by
  obtain ⟨json, hvalue, hjson⟩ := h
  obtain ⟨json', hvalue', hfield⟩ := hkept.exists_value hdefault hvalue
  exact ⟨json', hvalue', hp json json' hfield hjson⟩

theorem optional {p : Json → Prop} {absent : Prop} {default : Json}
    (hkept : field.KeptIn members members') (hdefault : field.default? = some default)
    (habsent : absent ↔ p default)
    (hp : ∀ json json', field.holds.Kept json json' → p json → p json')
    (h : Json.Optional members field.name absent p) :
    Json.Optional members' field.name absent p := by
  rcases h with ⟨hnone, hknown⟩ | ⟨json, hvalue, hjson⟩
  · obtain ⟨hlength, hfield⟩ := hkept (by rw [hnone]; exact Nat.zero_le 1)
    rw [hnone] at hfield
    rcases hvalues : valuesOf members' field.name with _ | ⟨json', _ | ⟨second, rest⟩⟩
    · exact .inl ⟨hvalues, hknown⟩
    · rw [hvalues] at hfield
      cases hdefault.symm.trans hfield
      exact .inr ⟨default, hvalues, habsent.mp hknown⟩
    · simp [hvalues] at hlength
  · obtain ⟨hlength, hfield⟩ := hkept (by rw [hvalue]; exact Nat.le_refl 1)
    rw [hvalue] at hfield
    rcases hvalues : valuesOf members' field.name with _ | ⟨json', _ | ⟨second, rest⟩⟩
    · rw [hvalues] at hfield
      cases hdefault.symm.trans hfield
      exact .inl ⟨hvalues, habsent.mpr hjson⟩
    · rw [hvalues] at hfield
      exact .inr ⟨json', hvalues, hp json json' hfield hjson⟩
    · simp [hvalues] at hlength

end Field.KeptIn

/-! ## Nodes -/

namespace Node

/-- What is left of a node without its kind. -/
def bodyOf : Json → Json
  | .object members => .object (members.filter (·.1 ≠ tagName))
  | .list (_ :: items) => .list items
  | json => json

theorem valuesOf_zip_eq_nil {names : List String} {name : String} (h : name ∉ names)
    (items : List Json) : valuesOf (names.zip items) name = [] := by
  rw [← List.length_eq_zero_iff, Json.length_valuesOf, List.count_eq_zero]
  exact fun hmem => h ((Json.map_fst_zip_sublist names items).subset hmem)

theorem tag?_eq_some_iff {fields : List Field} (h : tagName ∉ fields.map Field.name)
    {json tag : Json} :
    tag? json = some tag ↔ valuesOf (viewOf (.plain tagName :: fields) json) tagName = [tag] := by
  cases json with
  | object members =>
    unfold tag? viewOf valuesOf
    simp only
    generalize members.filter (·.1 = tagName) = tags
    rcases tags with _ | ⟨⟨name, json⟩, _ | ⟨second, rest⟩⟩ <;> simp
  | list items =>
    cases items with
    | nil => simp [tag?, viewOf, valuesOf]
    | cons first items =>
      change some first = some tag ↔
        valuesOf ((tagName, first) :: (fields.map Field.name).zip items) tagName = [tag]
      rw [Json.valuesOf_cons, if_pos rfl, valuesOf_zip_eq_nil h]
      simp
  | _ => simp [tag?, viewOf, valuesOf]

theorem ofJson_eq_ok_iff_body {json : Json} {node : Node} :
    ofJson json = .ok node ↔ ∃ tag kind, tag? json = some tag ∧ Kind.ofJson tag = .ok kind ∧
      (shape ofJson kind).read kind.recordName (bodyOf json) = .ok node := by
  rw [ofJson_eq]
  cases json with
  | object members =>
    have hnone : tagName ∉ ([] : List Field).map Field.name := List.not_mem_nil
    have htag : ∀ tag, tag? (.object members) = some tag ↔ valuesOf members tagName = [tag] :=
      fun tag => tag?_eq_some_iff hnone
    have hkind : ∀ kind, kindOfMembers members = .ok kind ↔
        ∃ tag, tag? (.object members) = some tag ∧ Kind.ofJson tag = .ok kind := by
      intro kind
      rw [kindOfMembers_eq_ok_iff]
      simp only [htag]
      rfl
    change (kindOfMembers members >>= fun kind => ofBody ofJson kind _) = _ ↔ _
    constructor
    · intro h
      cases hmembers : kindOfMembers members with
      | error what =>
        rw [hmembers] at h
        cases h
      | ok kind =>
        rw [hmembers] at h
        obtain ⟨tag, htag, hkind⟩ := (hkind kind).mp hmembers
        exact ⟨tag, kind, htag, hkind, h⟩
    · rintro ⟨tag, kind, htag, hname, hread⟩
      rw [(hkind kind).mpr ⟨tag, htag, hname⟩]
      exact hread
  | list items =>
    cases items with
    | nil => exact iff_of_false nofun (by rintro ⟨tag, kind, htag, -⟩; cases htag)
    | cons tag items =>
      change (Kind.ofJson tag >>= fun kind => ofBody ofJson kind (.list items)) = _ ↔ _
      cases hkind : Kind.ofJson tag with
      | error what =>
        refine iff_of_false nofun ?_
        rintro ⟨_, kind, ⟨rfl⟩, hname, -⟩
        cases hkind.symm.trans hname
      | ok kind =>
        constructor
        · exact fun h => ⟨tag, kind, rfl, hkind, h⟩
        · rintro ⟨_, kind', ⟨rfl⟩, hname, hread⟩
          cases hkind.symm.trans hname
          exact hread
  | _ => exact iff_of_false nofun (by rintro ⟨tag, kind, htag, -⟩; cases htag)

theorem valuesOf_bodyOf {fields : List Field} {name : String} (h : name ≠ tagName) (json : Json) :
    valuesOf (viewOf (.plain tagName :: fields) json) name =
      valuesOf (viewOf fields (bodyOf json)) name := by
  cases json with
  | object members => exact (Json.valuesOf_filter h).symm
  | list items =>
    cases items with
    | nil => simp [viewOf, bodyOf, valuesOf]
    | cons first items =>
      change valuesOf ((tagName, first) :: _) name = _
      rw [Json.valuesOf_cons, if_neg h.symm]
      rfl
  | _ => rfl

theorem tagName_not_mem_fields (kind : Kind) : tagName ∉ kind.fields.map Field.name := by
  cases kind <;> decide

theorem names_fields (kind : Kind) :
    (shape ofJson kind).fields = kind.fields.map Field.name ∧
      (kind.fields.map Field.name).Nodup := by
  cases kind <;> exact ⟨rfl, by decide⟩

end Node

theorem SameForm.bodyOf {json json' : Json} (h : SameForm json json') :
    SameForm (Node.bodyOf json) (Node.bodyOf json') := by
  cases h with
  | objects => exact .objects _ _
  | @lists items items' h =>
    cases items with
    | nil =>
      obtain rfl := List.eq_nil_of_length_eq_zero h.symm
      exact .lists rfl
    | cons first items =>
      obtain ⟨first', items', rfl⟩ := List.exists_cons_of_length_eq_add_one h.symm
      exact .lists (Nat.succ.inj h)

/-! ## All records -/

namespace Sheet

theorem decode?_eq_some_iff {json : Json} {sheet : Sheet} :
    decode? json = some sheet ↔ (∀ items, json = .list items → items.length = 2) ∧
      ofMembers? (viewOf Record.sheet.fields json) = some sheet := by
  unfold decode?
  split
  · simp
  · simp
  · rename_i hlist hobject
    refine iff_of_false nofun ?_
    rintro ⟨htwo, hsheet⟩
    cases json with
    | object members => exact hobject members rfl
    | list items =>
      obtain ⟨a, b, rfl⟩ := List.length_eq_two.mp (htwo items rfl)
      exact hlist a b rfl
    | _ => cases hsheet

theorem ofOutermost?_of_keeps {json json' : Json} {node : Node}
    (hkeeps : Role.Keeps json json' .node) (h : Node.ofOutermost? json = some node) :
    Node.ofOutermost? json' = some node := by
  unfold Node.ofOutermost? at h ⊢
  split at h
  · obtain ⟨hread, hnames⟩ := hkeeps node (Json.toOption_eq_some h)
    rw [if_pos (hnames ‹_›), hread]
    rfl
  · cases h

theorem nodes?_of_kept {json json' : Json} {nodes : List Node}
    (hkept : (Expected.many .node).Kept json json') (h : nodes? json = some nodes) :
    nodes? json' = some nodes := by
  cases json with
  | list items =>
    obtain ⟨items', rfl, hitems⟩ := hkept.keeps items rfl
    change items.mapM Node.ofOutermost? = some nodes at h
    change items'.mapM Node.ofOutermost? = some nodes
    clear hkept
    induction hitems generalizing nodes with
    | nil => exact h
    | cons hitem _ ih =>
      obtain ⟨node, rest, hnode, hrest, rfl⟩ := Json.mapM_cons_eq_some_iff.mp h
      exact Json.mapM_cons_eq_some_iff.mpr
        ⟨node, rest, ofOutermost?_of_keeps hitem hnode, ih hrest, rfl⟩
  | _ => cases h

end Sheet

theorem Role.keeps_of_kept {role : Role} {json json' : Json} (hform : SameForm json json')
    (hkept : ∀ record, role.record? (some json) = some record → ∀ field ∈ record.fields,
      field.KeptIn (viewOf record.fields json) (viewOf record.fields json')) :
    role.Keeps json json' := by
  cases role with
  | sheet =>
    intro sheet hsheet
    obtain ⟨hsource, hnodes⟩ := List.forall_mem_cons.mp (hkept .sheet rfl)
    obtain ⟨htwo, hmembers⟩ := Sheet.decode?_eq_some_iff.mp hsheet
    obtain ⟨hname, hitems⟩ := Sheet.ofMembers?_eq_some_iff.mp hmembers
    refine Sheet.decode?_eq_some_iff.mpr ⟨?_, Sheet.ofMembers?_eq_some_iff.mpr ⟨?_, ?_⟩⟩
    · rintro items' rfl
      cases hform with
      | lists hlength => exact hlength ▸ htwo _ rfl
    · refine hsource.optional rfl ?_ ?_ hname
      · change _ ↔ some "" = some sheet.sourceName
        rw [Option.some.injEq, eq_comm]
      · intro json json' hfield hstring
        rw [Sheet.string?_eq_some_iff] at hstring ⊢
        cases hstring
        exact hfield.alike.eq_string
    · refine (hnodes _ List.mem_cons_self).required rfl ?_ hitems
      intro json json' hfield hnodes
      exact Sheet.nodes?_of_kept hfield hnodes
  | node =>
    intro node hnode
    obtain ⟨tag, kind, htag, hkind, hread⟩ := Node.ofJson_eq_ok_iff_body.mp hnode
    have hrecord : record? (some json) .node = some (.node kind) := by
      simp [record?, htag, hkind, Except.toOption]
    obtain ⟨hfirst, hfields⟩ := List.forall_mem_cons.mp (hkept _ hrecord)
    have htags := Node.tagName_not_mem_fields kind
    obtain ⟨tag', hvalue, hkeeps⟩ := hfirst.exists_value rfl ((Node.tag?_eq_some_iff htags).mp htag)
    have htag' : Node.tag? json' = some tag' := (Node.tag?_eq_some_iff htags).mpr hvalue
    constructor
    · refine Node.ofJson_eq_ok_iff_body.mpr
        ⟨tag', kind, htag', Node.Kind.respects hkeeps hkind, ?_⟩
      refine (Node.obeys_shape kind).read (Node.names_fields kind).1
        (Node.names_fields kind).2 hform.bodyOf ?_ hread
      intro field hfield
      have hname : field.name ≠ Node.tagName := by
        intro heq
        exact htags (heq ▸ List.mem_map_of_mem hfield)
      exact (hfields field hfield).congr (Node.valuesOf_bodyOf hname json)
        (Node.valuesOf_bodyOf hname json')
    · intro hnames
      rw [Node.namesKind, htag, Option.any_some] at hnames
      rw [Node.namesKind, htag', Option.any_some]
      cases tag with
      | string s =>
        rw [hkeeps.alike.eq_string]
        rfl
      | _ => cases hnames
  | branch =>
    exact fun branch => Branch.obeys_shape.read rfl (by decide) hform (hkept _ rfl)
  | value => exact fun value => Value.obeys_shape.read rfl (by decide) hform (hkept _ rfl)
  | location => exact fun location => Location.obeys_shape.read rfl (by decide) hform (hkept _ rfl)
  | position => exact fun position => Position.obeys_shape.read rfl (by decide) hform (hkept _ rfl)

/-! ## All that is alike -/

theorem Record.nodup_names (record : Record) : (record.fields.map Field.name).Nodup := by
  rcases record with _ | kind | _ | _ | _ | _
  rotate_left
  · exact List.nodup_cons.mpr ⟨Node.tagName_not_mem_fields kind, (Node.names_fields kind).2⟩
  all_goals decide

theorem Record.find?_fields {record : Record} {field : Field} (h : field ∈ record.fields) :
    record.fields.find? (·.name = field.name) = some field := by
  rcases hfind : record.fields.find? (·.name = field.name) with _ | other
  · exact absurd (List.find?_eq_none.mp hfind field h) (by simp)
  · have hname : other.name = field.name := by simpa using List.find?_some hfind
    rw [hfind,
      List.inj_on_of_nodup_map record.nodup_names (List.mem_of_find?_eq_some hfind) h hname]

namespace Expected

theorem ofMember_field {e : Expected} {json : Json} {record : Record} {field : Field}
    (hrecord : e.record? (some json) = some record) (hfield : field ∈ record.fields) :
    e.ofMember (some json) (some field.name) = field.holds := by
  rw [ofMember, hrecord, Option.bind_some, Option.bind_some, Record.find?_fields hfield]
  rfl

theorem ofItem_field {role : Role} {json : Json} {record : Record} {field : Field} {index : Nat}
    (hrecord : role.record? (some json) = some record)
    (hfield : record.fields[index]? = some field) :
    (Expected.one role).ofItem (some json) index = field.holds := by
  change (((role.record? (some json)).bind _).map _).getD _ = _
  rw [hrecord, Option.bind_some, hfield]
  rfl

theorem keeps_of_members {e : Expected} {members members' : List Member}
    (hkept : ∀ record, e.record? (some (.object members)) = some record →
      ∀ field ∈ record.fields, field.KeptIn members members') :
    e.Keeps (.object members) (.object members') := by
  cases e with
  | one role => exact Role.keeps_of_kept (.objects members members') hkept
  | many role => exact nofun
  | _ => exact trivial

end Expected

theorem zip_append_of_le {names : List String} {earlier : List Json}
    (h : names.length ≤ earlier.length) (later : List Json) :
    names.zip (earlier ++ later) = names.zip earlier := by
  induction names generalizing earlier with
  | nil => rfl
  | cons name names ih =>
    cases earlier with
    | nil => simp at h
    | cons item earlier =>
      rw [List.cons_append, List.zip_cons_cons, List.zip_cons_cons, ih (Nat.le_of_succ_le_succ h)]

theorem Field.keptIn_item {record : Record} {field : Field} (hfield : field ∈ record.fields)
    {earlier later : List Json} {json json' : Json}
    (h : ∀ other, record.fields[earlier.length]? = some other → other.holds.Kept json json') :
    field.KeptIn (viewOf record.fields (.list (earlier ++ json :: later)))
      (viewOf record.fields (.list (earlier ++ json' :: later))) := by
  unfold viewOf
  rcases hother : record.fields[earlier.length]? with _ | other
  · have hle : (record.fields.map Field.name).length ≤ earlier.length := by
      rw [List.length_map]
      exact List.getElem?_eq_none_iff.mp hother
    simp only [zip_append_of_le hle]
    exact keptIn_of_eq rfl
  · obtain ⟨hlt, hget⟩ := List.getElem?_eq_some_iff.mp hother
    have hfields : record.fields =
        record.fields.take earlier.length ++ other :: record.fields.drop (earlier.length + 1) := by
      rw [← hget, ← List.drop_eq_getElem_cons hlt, List.take_append_drop]
    have hzip : ∀ item : Json, (record.fields.map Field.name).zip (earlier ++ item :: later) =
        ((record.fields.take earlier.length).map Field.name).zip earlier ++ (other.name, item) ::
          ((record.fields.drop (earlier.length + 1)).map Field.name).zip later := by
      intro item
      conv_lhs => rw [hfields]
      rw [List.map_append, List.map_cons, List.zip_append, List.zip_cons_cons]
      rw [List.length_map, List.length_take, Nat.min_eq_left (Nat.le_of_lt hlt)]
    simp only [hzip]
    apply keptIn_replaced
    intro hname
    rw [List.inj_on_of_nodup_map record.nodup_names hfield (List.mem_of_getElem? hother) hname]
    exact h other hother

/-- What is alike is read alike. -/
theorem Json.Alike.keeps {e : Expected} {json json' : Json} (h : Alike e json json') :
    e.Keeps json json' := by
  induction h with
  | refl e json => exact e.keeps_refl json
  | permuted h => exact Expected.keeps_of_members fun record _ field _ => Field.keptIn_permuted h
  | @item e earlier later json json' h ih =>
    cases e with
    | one role =>
      refine Role.keeps_of_kept (.lists (by simp)) fun record hrecord field hfield => ?_
      apply Field.keptIn_item hfield
      intro other hother
      rw [Expected.ofItem_field hrecord hother] at h ih
      exact ⟨h, ih⟩
    | many role =>
      rintro _ ⟨rfl⟩
      exact ⟨_, rfl, forall₂_replaced role.keeps_refl _ _ ih⟩
    | _ => exact trivial
  | @member e earlier later name json json' h ih =>
    refine Expected.keeps_of_members fun record hrecord field hfield => ?_
    apply Field.keptIn_replaced
    rintro rfl
    rw [Expected.ofMember_field hrecord hfield] at h ih
    exact ⟨h, ih⟩
  | @written e earlier later record field default hrecord hfield hdefault habsent =>
    refine Expected.keeps_of_members fun record' hrecord' other hother => ?_
    cases hrecord.symm.trans hrecord'
    apply Field.keptIn_written
    · intro hname
      rw [List.inj_on_of_nodup_map record.nodup_names hother hfield hname]
      exact hdefault
    · rw [valuesOf, List.filter_eq_nil_iff.mpr (by simpa using habsent)]
      rfl
  | @leftOut e earlier later record field default hrecord hfield hdefault =>
    refine Expected.keeps_of_members fun record' hrecord' other hother => ?_
    cases hrecord.symm.trans hrecord'
    apply Field.keptIn_leftOut
    intro hname
    rw [List.inj_on_of_nodup_map record.nodup_names hother hfield hname]
    exact hdefault
  | inserted hrecord hother =>
    refine Expected.keeps_of_members fun record' hrecord' field hfield => ?_
    cases hrecord.symm.trans hrecord'
    exact Field.keptIn_inserted (hother field hfield)

end StyleScope
