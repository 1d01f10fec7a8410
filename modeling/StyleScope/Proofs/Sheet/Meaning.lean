import StyleScope.Proofs.Sheet.Decoding
import StyleScope.Proofs.Sheet.Schema

/-!
# Records are read as their form says

Where no record is a list and kinds are names, what is read of a JSON value is what it spells.
-/

namespace StyleScope

open Json (Mismatch Shape Required Optional Member IsObject IsList IsOption)

namespace Json

variable {α : Type}

/-! ## What fits -/

theorem fits_of_mem {expects : String → Expected} {members : List Member}
    (h : fitsMembers expects members) {name : String} {json : Json} (hmem : (name, json) ∈ members) :
    json.fits (expects name) := by
  induction members with
  | nil => cases hmem
  | cons member members ih =>
    rw [fitsMembers, Bool.and_eq_true] at h
    rcases List.mem_cons.mp hmem with rfl | hmem
    · exact h.1
    · exact ih h.2 hmem

theorem fits_of_mem_items {role : Role} {items : List Json} (h : fitsItems role items)
    {item : Json} (hmem : item ∈ items) : item.fits (.one role) := by
  induction items with
  | nil => cases hmem
  | cons first items ih =>
    rw [fitsItems, Bool.and_eq_true] at h
    rcases List.mem_cons.mp hmem with rfl | hmem
    · exact h.1
    · exact ih h.2 hmem

/-! ## Fields -/

theorem IsObject.congr {p q : List Member → Prop} {json : Json}
    (h : ∀ members, json = .object members → (p members ↔ q members)) :
    IsObject p json ↔ IsObject q json :=
  exists_congr fun members => and_congr_right (h members)

theorem IsList.congr {p q : List Json → Prop} {json : Json}
    (h : ∀ items, json = .list items → (p items ↔ q items)) : IsList p json ↔ IsList q json :=
  exists_congr fun items => and_congr_right (h items)

theorem asString_eq_ok_iff {json : Json} {s : String} :
    asString json = .ok s ↔ StringMeantBy s json := by
  unfold asString StringMeantBy
  cases json <;> simp

theorem asWord_eq_ok_iff {json : Json} {n : UInt32} : asWord json = .ok n ↔ WordMeantBy n json := by
  unfold WordMeantBy
  constructor
  · intro h
    unfold asWord at h
    split at h
    · rename_i k
      split at h
      · rename_i hrange
        cases h
        have hsize : k.toNat < UInt32.size := by omega
        rw [UInt32.toNat_ofNat_of_lt' hsize, Int.toNat_of_nonneg hrange.1]
        rfl
      · cases h
    · cases h
  · rintro rfl
    exact asWord_ofWord n

theorem asOption_eq_ok_none_iff {read : Json → Except Mismatch α} {json : Json} :
    asOption read json = .ok none ↔ json = .null := by
  unfold asOption
  split
  · simp
  · rename_i hne
    refine iff_of_false ?_ hne
    cases read json <;> simp [Except.map]

theorem asOption_eq_ok_some_iff {read : Json → Except Mismatch α} {p : Json → Prop} {json : Json}
    {value : α} (hnull : ¬ p .null) (h : read json = .ok value ↔ p json) :
    asOption read json = .ok (some value) ↔ p json := by
  unfold asOption
  split
  · simp [hnull]
  · rw [← h]
    cases read json <;> simp [Except.map]

theorem asOption_eq_ok_iff {read : Json → Except Mismatch α} {p : α → Json → Prop} {json : Json}
    {value? : Option α} (hnull : ∀ value, ¬ p value .null)
    (h : ∀ value, read json = .ok value ↔ p value json) :
    asOption read json = .ok value? ↔ IsOption p value? json := by
  cases value? with
  | none => exact asOption_eq_ok_none_iff
  | some value => exact asOption_eq_ok_some_iff (hnull value) (h value)

theorem asList_eq_ok_iff {read : Json → Except Mismatch α} {json : Json} {values : List α} :
    asList read json = .ok values ↔ IsList (fun items => items.mapM read = .ok values) json := by
  unfold asList IsList
  cases json <;> simp

theorem asList_eq_ok_iff_of_fits {read : Json → Except Mismatch α} {p : List Json → Prop}
    {role : Role} {json : Json} {values : List α} (hfits : json.fits (.many role))
    (h : ∀ items, fitsItems role items → (items.mapM read = .ok values ↔ p items)) :
    asList read json = .ok values ↔ IsList p json := by
  rw [asList_eq_ok_iff]
  apply IsList.congr
  rintro items rfl
  exact h items hfits

theorem mapM_eq_ok_nil_iff {read : Json → Except Mismatch α} {items : List Json} :
    items.mapM read = .ok [] ↔ items = [] := by
  cases items with
  | nil => simp [pure, Except.pure]
  | cons item items =>
    rw [List.mapM_cons]
    cases read item <;> cases items.mapM read <;> simp [bind, Except.bind, pure, Except.pure]

theorem mapM_eq_ok_cons_iff {read : Json → Except Mismatch α} {items : List Json} {value : α}
    {values : List α} :
    items.mapM read = .ok (value :: values) ↔
      ∃ item rest, items = item :: rest ∧ read item = .ok value ∧ rest.mapM read = .ok values := by
  cases items with
  | nil => simp [pure, Except.pure]
  | cons item items =>
    rw [List.mapM_cons]
    cases hitem : read item <;> cases hitems : items.mapM read <;>
      simp [hitem, hitems, bind, Except.bind, pure, Except.pure]

theorem mapM_eq_ok_iff {read : Json → Except Mismatch α} {p : α → Json → Prop} {items : List Json}
    {values : List α} (h : ∀ item ∈ items, ∀ value, read item = .ok value ↔ p value item) :
    items.mapM read = .ok values ↔ List.Forall₂ p values items := by
  induction values generalizing items with
  | nil => rw [mapM_eq_ok_nil_iff, List.forall₂_nil_left_iff]
  | cons value values ih =>
    rw [mapM_eq_ok_cons_iff, List.forall₂_cons_left_iff]
    refine exists_congr fun item => exists_congr fun rest => ?_
    constructor
    · rintro ⟨rfl, hitem, hrest⟩
      obtain ⟨hfirst, hothers⟩ := List.forall_mem_cons.mp h
      exact ⟨(hfirst value).mp hitem, (ih hothers).mp hrest, rfl⟩
    · rintro ⟨hitem, hrest, rfl⟩
      obtain ⟨hfirst, hothers⟩ := List.forall_mem_cons.mp h
      exact ⟨rfl, (hfirst value).mpr hitem, (ih hothers).mpr hrest⟩

theorem asList_strings_eq_ok_iff {json : Json} {strings : List String} :
    asList asString json = .ok strings ↔ IsList (List.Forall₂ StringMeantBy strings) json := by
  rw [asList_eq_ok_iff]
  apply IsList.congr
  intro items _
  apply mapM_eq_ok_iff
  intro item _ s
  exact asString_eq_ok_iff

theorem not_isList_null (p : List Json → Prop) : ¬ IsList p .null := by
  rintro ⟨items, heq, -⟩
  cases heq

theorem named_eq_ok_iff {nameOf : α → String} {kinds : List α}
    (hinj : ∀ a ∈ kinds, ∀ b ∈ kinds, nameOf a = nameOf b → a = b) {name : String} {kind : α}
    (hkind : kind ∈ kinds) : named nameOf kinds name = .ok kind ↔ nameOf kind = name := by
  constructor
  · intro h
    unfold named at h
    split at h
    · rename_i hfind
      cases h
      simpa using List.find?_some hfind
    · cases h
  · rintro rfl
    exact named_eq hinj hkind

theorem read_eq_ok_iff {role : Role} {name : String} {shape : Shape α} {json : Json} {value : α}
    (h : json.fits (.one role)) :
    shape.read name json = .ok value ↔ IsObject (fun members => shape.Allows members value) json := by
  unfold IsObject
  cases json with
  | object members => simp [Shape.read, Shape.ofMembers_eq_ok_iff]
  | list items => cases h
  | _ => simp [Shape.read, throw, throwThe, MonadExceptOf.throw]

end Json

/-! ## Places and values -/

theorem Position.ofJson_eq_ok_iff {json : Json} {position : Position}
    (h : json.fits (.one .position)) : ofJson json = .ok position ↔ position.MeantBy json := by
  obtain ⟨line, column, offset⟩ := position
  unfold ofJson MeantBy
  rw [Json.read_eq_ok_iff h]
  apply Json.IsObject.congr
  intro members _
  unfold shape
  rw [Shape.allows_three (by simp)]
  simp only [Shape.allows_required, Json.asWord_eq_ok_iff]

theorem Location.ofJson_eq_ok_iff {json : Json} {location : Location}
    (h : json.fits (.one .location)) : ofJson json = .ok location ↔ location.MeantBy json := by
  obtain ⟨start, stop⟩ := location
  unfold ofJson MeantBy
  rw [Json.read_eq_ok_iff h]
  apply Json.IsObject.congr
  rintro members rfl
  unfold shape
  rw [Shape.allows_two (by simp), Shape.allows_required, Shape.allows_required]
  refine and_congr (Json.Required.congr fun json hmem => ?_) (Json.Required.congr fun json hmem => ?_)
  · exact Position.ofJson_eq_ok_iff (Json.fits_of_mem h hmem)
  · exact Position.ofJson_eq_ok_iff (Json.fits_of_mem h hmem)

theorem Location.not_meantBy_null (location : Location) : ¬ location.MeantBy .null := by
  rintro ⟨members, heq, -⟩
  cases heq

theorem allows_optionalLocation {expects : String → Expected} {members : List Member}
    (h : Json.fitsMembers expects members) (hexpects : expects "location" = .one .location)
    {location : Option Location} :
    optionalLocation.Allows members location ↔ OptionalLocation location members := by
  unfold optionalLocation OptionalLocation
  rw [Shape.allows_optional]
  apply Json.Optional.congr
  intro json hmem
  have hjson := Json.fits_of_mem h hmem
  rw [hexpects] at hjson
  exact Json.asOption_eq_ok_iff Location.not_meantBy_null fun _ => Location.ofJson_eq_ok_iff hjson

theorem allows_requiredLocation {expects : String → Expected} {members : List Member}
    (h : Json.fitsMembers expects members) (hexpects : expects "location" = .one .location)
    {location : Location} :
    requiredLocation.Allows members location ↔ Required members "location" location.MeantBy := by
  unfold requiredLocation
  rw [Shape.allows_required]
  apply Json.Required.congr
  intro json hmem
  have hjson := Json.fits_of_mem h hmem
  rw [hexpects] at hjson
  exact Location.ofJson_eq_ok_iff hjson

theorem Value.ofJson_eq_ok_iff {json : Json} {value : Value} (h : json.fits (.one .value)) :
    ofJson json = .ok value ↔ value.MeantBy json := by
  obtain ⟨text, location⟩ := value
  unfold ofJson MeantBy
  rw [Json.read_eq_ok_iff h]
  apply Json.IsObject.congr
  rintro members rfl
  unfold shape
  rw [Shape.allows_two (by simp), Shape.allows_required, allows_optionalLocation h rfl]
  simp only [Json.asString_eq_ok_iff]

theorem allows_optionalValues {expects : String → Expected} {members : List Member}
    (h : Json.fitsMembers expects members) {name : String} (hexpects : expects name = .many .value)
    {values : List Value} :
    (optionalValues name).Allows members values ↔ OptionalValues name values members := by
  unfold optionalValues OptionalValues
  rw [Shape.allows_optional]
  apply Json.Optional.congr
  intro json hmem
  have hjson := Json.fits_of_mem h hmem
  rw [hexpects] at hjson
  apply Json.asList_eq_ok_iff_of_fits hjson
  intro items hitems
  apply Json.mapM_eq_ok_iff
  intro item hitem value
  exact Value.ofJson_eq_ok_iff (Json.fits_of_mem_items hitems hitem)

/-! ## Kinds -/

theorem Branch.Kind.ofJson_eq_ok_iff {json : Json} {kind : Branch.Kind} (h : json.fits .name) :
    ofJson json = .ok kind ↔ kind.MeantBy json := by
  have hmeant : kind.MeantBy json ↔ json = .string kind.name := by cases kind <;> rfl
  rw [hmeant]
  cases json with
  | string name =>
    have hkind : kind ∈ all := by cases kind <;> decide
    change Json.named _ _ name = _ ↔ _
    rw [Json.named_eq_ok_iff name_inj hkind, Json.string.injEq, eq_comm]
  | _ => cases h

namespace Node

theorem Kind.ofName_eq_ok_iff {name : String} {kind : Kind} :
    ofName name = .ok kind ↔ kind.name = name := by
  have hkind : kind ∈ all := by cases kind <;> decide
  exact Json.named_eq_ok_iff name_inj hkind

theorem Kind.ofJson_eq_ok_iff {json : Json} {kind : Kind} (h : json.fits .name) :
    ofJson json = .ok kind ↔ StringMeantBy kind.name json := by
  unfold StringMeantBy
  cases json with
  | string name =>
    change ofName name = _ ↔ _
    rw [ofName_eq_ok_iff, Json.string.injEq, eq_comm]
  | _ => cases h

theorem kindOfMembers_eq_ok_iff {members : List Member} {kind : Kind} :
    kindOfMembers members = .ok kind ↔
      Required members tagName fun tag => Kind.ofJson tag = .ok kind := by
  unfold kindOfMembers Required Json.valuesOf
  generalize members.filter (·.1 = tagName) = tags
  rcases tags with _ | ⟨⟨name, tag⟩, _ | ⟨second, rest⟩⟩
  · simp [throw, throwThe, MonadExceptOf.throw]
  · simp
  · refine iff_of_false ?_ (by simp)
    intro h
    cases hkind : Kind.ofJson tag with
    | error what =>
      simp only [hkind] at h
      cases h
    | ok kind =>
      simp only [hkind] at h
      cases h

theorem kindOf?_eq {members : List Member} {kind : Kind}
    (h : Required members "type" (StringMeantBy kind.name)) : kindOf? members = some kind := by
  obtain ⟨_, hvalues, rfl⟩ := h
  unfold kindOf?
  rw [hvalues]
  cases kind <;> simp [Kind.name, List.lookup]

theorem kind_of_allows {read : Json → Except Mismatch Node} {kind : Kind} {members : List Member}
    {node : Node} (h : (shape read kind).Allows members node) : node.kind = kind := by
  cases kind with
  | conditionalBlock =>
    obtain ⟨_, _, h₁, -, rfl⟩ := Shape.allows_seq.mp h
    obtain ⟨_, -, rfl⟩ := Shape.allows_map.mp h₁
    rfl
  | atRule =>
    obtain ⟨_, _, h₁, -, rfl⟩ := Shape.allows_seq.mp h
    obtain ⟨_, _, h₂, -, rfl⟩ := Shape.allows_seq.mp h₁
    obtain ⟨_, _, h₃, -, rfl⟩ := Shape.allows_seq.mp h₂
    obtain ⟨_, -, rfl⟩ := Shape.allows_map.mp h₃
    rfl
  | definition | ruleset | declaration =>
    obtain ⟨_, _, h₁, -, rfl⟩ := Shape.allows_seq.mp h
    obtain ⟨_, _, h₂, -, rfl⟩ := Shape.allows_seq.mp h₁
    obtain ⟨_, -, rfl⟩ := Shape.allows_map.mp h₂
    rfl

theorem ofJson_eq_ok_iff_tagged {json : Json} {node : Node} (h : json.fits (.one .node)) :
    ofJson json = .ok node ↔
      Tagged node.kind.name (fun members =>
        (shape ofJson node.kind).Allows (members.filter (·.1 ≠ tagName)) node) json := by
  rw [ofJson_eq]
  cases json with
  | object members =>
    have hkind : ∀ kind, kindOfMembers members = .ok kind ↔
        Required members "type" (StringMeantBy kind.name) := by
      intro kind
      rw [kindOfMembers_eq_ok_iff]
      apply Json.Required.congr
      intro tag hmem
      exact Kind.ofJson_eq_ok_iff (Json.fits_of_mem h hmem)
    have hread : ∀ kind, ofBody ofJson kind (.object (members.filter (·.1 ≠ tagName))) = .ok node ↔
        (shape ofJson kind).Allows (members.filter (·.1 ≠ tagName)) node :=
      fun kind => Shape.ofMembers_eq_ok_iff
    unfold ofJsonWith Tagged IsObject
    simp only [Json.object.injEq, exists_eq_left', ← hkind, ← hread]
    cases hmembers : kindOfMembers members with
    | error what => simp [bind, Except.bind]
    | ok kind =>
      simp only [bind, Except.bind]
      constructor
      · intro hbody
        rw [kind_of_allows ((hread kind).mp hbody)]
        exact ⟨rfl, hbody⟩
      · rintro ⟨hsame, hbody⟩
        cases hsame
        exact hbody
  | list items => cases h
  | _ =>
    refine iff_of_false nofun ?_
    rintro ⟨members, heq, -⟩
    cases heq

end Node

/-! ## Nodes -/

section

variable {expects : String → Expected} {members : List Member} {name : String} {p : Json → Prop}
  {absent : Prop}

theorem required_fields (h : name ≠ Node.tagName) :
    Required (members.filter (·.1 ≠ Node.tagName)) name p ↔ Required members name p := by
  unfold Required
  rw [Json.valuesOf_filter h]

theorem optional_fields (h : name ≠ Node.tagName) :
    Optional (members.filter (·.1 ≠ Node.tagName)) name absent p ↔
      Optional members name absent p := by
  unfold Optional
  rw [Json.valuesOf_filter h, required_fields h]

theorem fitsMembers_filter (h : Json.fitsMembers expects members) (q : Member → Bool) :
    Json.fitsMembers expects (members.filter q) := by
  induction members with
  | nil => rfl
  | cons member members ih =>
    rw [Json.fitsMembers, Bool.and_eq_true] at h
    rw [List.filter_cons]
    split
    · rw [Json.fitsMembers, Bool.and_eq_true]
      exact ⟨h.1, ih h.2⟩
    · exact ih h.2

theorem allows_optionalNodes (h : Json.fitsMembers expects members)
    (hexpects : expects "children" = .many .node) {nodes : List Node}
    (hnodes : ∀ items, Json.fitsItems .node items →
      (items.mapM Node.ofJson = .ok nodes ↔ nodesMeantBy nodes items)) :
    (optionalNodes Node.ofJson).Allows members nodes ↔
      Optional members "children" (nodes = []) (IsList (nodesMeantBy nodes)) := by
  unfold optionalNodes
  rw [Shape.allows_optional]
  apply Json.Optional.congr
  intro json hmem
  have hjson := Json.fits_of_mem h hmem
  rw [hexpects] at hjson
  exact Json.asList_eq_ok_iff_of_fits hjson hnodes

theorem allows_block (h : Json.fitsMembers expects members)
    (hexpects : expects "block" = .many .node) {nodes : List Node}
    (hnodes : ∀ items, Json.fitsItems .node items →
      (items.mapM Node.ofJson = .ok nodes ↔ nodesMeantBy nodes items)) :
    (Shape.optional "block" none (Json.asOption (Json.asList Node.ofJson))).Allows members
        (some nodes) ↔ Required members "block" (IsList (nodesMeantBy nodes)) := by
  rw [Shape.allows_optional, Optional, or_iff_right (by simp)]
  apply Json.Required.congr
  intro json hmem
  have hjson := Json.fits_of_mem h hmem
  rw [hexpects] at hjson
  exact Json.asOption_eq_ok_some_iff (Json.not_isList_null _)
    (Json.asList_eq_ok_iff_of_fits hjson hnodes)

end

/-- What is expected of the members of a node of a known kind. -/
def Node.Kind.expects (kind : Kind) (name : String) : Expected :=
  ((("type", .name) :: kind.records).lookup name).getD .anything

theorem Node.ofJson_eq_ok_iff_fields {json : Json} {node : Node} {p : List Member → Prop}
    (h : json.fits (.one .node)) (hp : ∀ members, p (members.filter (·.1 ≠ tagName)) ↔ p members)
    (hfields : ∀ fields, Json.fitsMembers node.kind.expects fields →
      ((shape ofJson node.kind).Allows fields node ↔ p fields)) :
    ofJson json = .ok node ↔ Tagged node.kind.name p json := by
  rw [ofJson_eq_ok_iff_tagged h]
  apply Json.IsObject.congr
  rintro members rfl
  apply and_congr_right
  intro htag
  have hexpects : Role.expects members .node = node.kind.expects := by
    funext name
    unfold Role.expects Role.fields
    rw [kindOf?_eq htag]
    rfl
  have hmembers : Json.fitsMembers (Role.expects members .node) members := h
  rw [hexpects] at hmembers
  rw [← hp members]
  exact hfields _ (fitsMembers_filter hmembers _)

mutual

/-- A node is read of just what spells it. -/
theorem Node.ofJson_eq_ok_iff (node : Node) {json : Json} (h : json.fits (.one .node)) :
    Node.ofJson json = .ok node ↔ node.MeantBy json := by
  match node with
  | .conditionalBlock branches location =>
    refine Node.ofJson_eq_ok_iff_fields h ?_ ?_
    · intro members
      unfold OptionalLocation
      rw [required_fields (by simp [Node.tagName]), optional_fields (by simp [Node.tagName])]
    · intro fields hfields
      unfold Node.kind Node.shape
      rw [Shape.allows_two (by simp), Shape.allows_required, allows_optionalLocation hfields rfl]
      refine and_congr_left fun _ => Json.Required.congr fun json hmem => ?_
      exact Json.asList_eq_ok_iff_of_fits (Json.fits_of_mem hfields hmem)
        fun items hitems => mapM_branches branches hitems
  | .definition name values location =>
    refine Node.ofJson_eq_ok_iff_fields h ?_ ?_
    · intro members
      unfold OptionalValues
      rw [required_fields (by simp [Node.tagName]), optional_fields (by simp [Node.tagName]),
        required_fields (by simp [Node.tagName])]
    · intro fields hfields
      unfold Node.kind Node.shape
      rw [Shape.allows_three (by simp), Shape.allows_required, allows_optionalValues hfields rfl,
        allows_requiredLocation hfields rfl]
      simp only [Json.asString_eq_ok_iff]
  | .atRule name params none location =>
    refine Node.ofJson_eq_ok_iff_fields h ?_ ?_
    · intro members
      unfold OptionalValues
      rw [required_fields (by simp [Node.tagName]), optional_fields (by simp [Node.tagName]),
        optional_fields (by simp [Node.tagName]), required_fields (by simp [Node.tagName])]
    · intro fields hfields
      unfold Node.kind Node.shape
      rw [Shape.allows_four (by simp), Shape.allows_required, allows_optionalValues hfields rfl,
        Shape.allows_optional, allows_requiredLocation hfields rfl]
      simp only [Json.asString_eq_ok_iff, Json.asOption_eq_ok_none_iff]
  | .atRule name params (some nodes) location =>
    refine Node.ofJson_eq_ok_iff_fields h ?_ ?_
    · intro members
      unfold OptionalValues
      rw [required_fields (by simp [Node.tagName]), optional_fields (by simp [Node.tagName]),
        required_fields (by simp [Node.tagName]), required_fields (by simp [Node.tagName])]
    · intro fields hfields
      unfold Node.kind Node.shape
      rw [Shape.allows_four (by simp), Shape.allows_required, allows_optionalValues hfields rfl,
        allows_block hfields rfl fun items hitems => mapM_nodes nodes hitems,
        allows_requiredLocation hfields rfl]
      simp only [Json.asString_eq_ok_iff]
  | .ruleset selectors children location =>
    refine Node.ofJson_eq_ok_iff_fields h ?_ ?_
    · intro members
      unfold OptionalLocation
      rw [required_fields (by simp [Node.tagName]), optional_fields (by simp [Node.tagName]),
        optional_fields (by simp [Node.tagName])]
    · intro fields hfields
      unfold Node.kind Node.shape
      rw [Shape.allows_three (by simp), Shape.allows_required,
        allows_optionalNodes hfields rfl fun items hitems => mapM_nodes children hitems,
        allows_optionalLocation hfields rfl]
      simp only [Json.asList_strings_eq_ok_iff]
  | .declaration property values location =>
    refine Node.ofJson_eq_ok_iff_fields h ?_ ?_
    · intro members
      unfold OptionalValues OptionalLocation
      rw [required_fields (by simp [Node.tagName]), optional_fields (by simp [Node.tagName]),
        optional_fields (by simp [Node.tagName])]
    · intro fields hfields
      unfold Node.kind Node.shape
      rw [Shape.allows_three (by simp), Shape.allows_required, allows_optionalValues hfields rfl,
        allows_optionalLocation hfields rfl]
      simp only [Json.asString_eq_ok_iff]

theorem Branch.ofJson_eq_ok_iff (branch : Branch) {json : Json} (h : json.fits (.one .branch)) :
    Branch.ofJson Node.ofJson json = .ok branch ↔ branch.MeantBy json := by
  match branch with
  | ⟨kind, condition, children, location⟩ =>
    unfold Branch.ofJson Branch.MeantBy
    rw [Json.read_eq_ok_iff h]
    apply Json.IsObject.congr
    rintro members rfl
    unfold Branch.shape
    rw [Shape.allows_four (by simp), Shape.allows_required, Shape.allows_optional,
      allows_optionalNodes h rfl fun items hitems => mapM_nodes children hitems,
      allows_requiredLocation h rfl]
    refine and_congr (Json.Required.congr fun json hmem => ?_)
      (and_congr_left fun _ => Json.Optional.congr fun json _ => ?_)
    · exact Branch.Kind.ofJson_eq_ok_iff (Json.fits_of_mem h hmem)
    · exact Json.asOption_eq_ok_iff (by simp [StringMeantBy]) fun _ => Json.asString_eq_ok_iff

theorem mapM_nodes (nodes : List Node) {items : List Json} (h : Json.fitsItems .node items) :
    items.mapM Node.ofJson = .ok nodes ↔ nodesMeantBy nodes items := by
  match nodes with
  | [] => exact Json.mapM_eq_ok_nil_iff
  | node :: nodes =>
    rw [Json.mapM_eq_ok_cons_iff, nodesMeantBy]
    refine exists_congr fun item => exists_congr fun rest => and_congr_right ?_
    rintro rfl
    rw [Json.fitsItems, Bool.and_eq_true] at h
    exact and_congr (Node.ofJson_eq_ok_iff node h.1) (mapM_nodes nodes h.2)

theorem mapM_branches (branches : List Branch) {items : List Json}
    (h : Json.fitsItems .branch items) :
    items.mapM (Branch.ofJson Node.ofJson) = .ok branches ↔ branchesMeantBy branches items := by
  match branches with
  | [] => exact Json.mapM_eq_ok_nil_iff
  | branch :: branches =>
    rw [Json.mapM_eq_ok_cons_iff, branchesMeantBy]
    refine exists_congr fun item => exists_congr fun rest => and_congr_right ?_
    rintro rfl
    rw [Json.fitsItems, Bool.and_eq_true] at h
    exact and_congr (Branch.ofJson_eq_ok_iff branch h.1) (mapM_branches branches h.2)

end

end StyleScope
