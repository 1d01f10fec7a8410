import StyleScope.Proofs.Sheet.Acceptance
import StyleScope.Proofs.Sheet.Alike

/-!
# What is alike is read alike

Of an object a record reads the values of its fields, and of a list the items in their order. So a
record is read alike where its fields are, and where a field is missing whose default was there.
-/

namespace StyleScope

open Json (Mismatch Shape Member Alike valuesOf)

/-! ## Plain values -/

namespace Json

variable {e : Expected} {json json' : Json}

theorem Alike.eq_null (h : Alike e .null json') : json' = .null := by
  cases h
  rfl

theorem Alike.null_eq (h : Alike e json .null) : json = .null := by
  cases h
  rfl

theorem Alike.eq_string {s : String} (h : Alike e (.string s) json') : json' = .string s := by
  cases h
  rfl

theorem Alike.eq_number {n : Number} (h : Alike e (.number n) json') : json' = .number n := by
  cases h
  rfl

theorem forall₂_replaced {α : Type} {R : α → α → Prop} (hrefl : ∀ a, R a a)
    (earlier later : List α) {a a' : α} (h : R a a') :
    List.Forall₂ R (earlier ++ a :: later) (earlier ++ a' :: later) :=
  List.rel_append (List.forall₂_same.mpr fun a _ => hrefl a)
    (.cons h (List.forall₂_same.mpr fun a _ => hrefl a))

theorem Alike.eq_list {items : List Json} (h : Alike .anything (.list items) json') :
    ∃ items', json' = .list items' ∧ List.Forall₂ (Alike .anything) items items' := by
  cases h with
  | refl => exact ⟨items, rfl, List.forall₂_same.mpr fun item _ => .refl _ item⟩
  | item h => exact ⟨_, rfl, forall₂_replaced (Alike.refl _) _ _ h⟩

theorem Alike.eq_object {members : List Member} (h : Alike .anything (.object members) json') :
    ∃ between members', json' = .object members' ∧ members.Perm between ∧
      List.Forall₂ (fun member member' => member.1 = member'.1 ∧ Alike .anything member.2 member'.2)
        between members' := by
  have hsame : ∀ members : List Member, List.Forall₂
      (fun member member' => member.1 = member'.1 ∧ Alike .anything member.2 member'.2)
        members members :=
    fun members => List.forall₂_same.mpr fun member _ => ⟨rfl, .refl _ _⟩
  cases h with
  | refl => exact ⟨members, members, rfl, .refl _, hsame members⟩
  | permuted h => exact ⟨_, _, rfl, h, hsame _⟩
  | member h =>
    refine ⟨_, _, rfl, .refl _, forall₂_replaced (fun member => ⟨rfl, .refl _ _⟩) _ _ ⟨rfl, h⟩⟩
  | written hrecord => cases hrecord
  | leftOut hrecord => cases hrecord
  | inserted hrecord => cases hrecord

theorem Alike.eq_single {name : String} {content : Json}
    (h : Alike .anything (.object [(name, content)]) json') :
    ∃ content', json' = .object [(name, content')] ∧ Alike .anything content content' := by
  obtain ⟨between, members', rfl, hperm, hmembers⟩ := h.eq_object
  obtain rfl := List.perm_singleton.mp hperm.symm
  obtain ⟨⟨name', content'⟩, rest, ⟨rfl, halike⟩, hrest, rfl⟩ :=
    List.forall₂_cons_left_iff.mp hmembers
  obtain rfl := List.forall₂_nil_left_iff.mp hrest
  exact ⟨content', rfl, halike⟩

theorem mapM_of_forall₂ {α : Type} {R : Json → Json → Prop} {read : Json → Except Mismatch α}
    (hread : ∀ json json' value, R json json' → read json = .ok value → read json' = .ok value)
    {items items' : List Json} (h : List.Forall₂ R items items') {values : List α}
    (hvalues : items.mapM read = .ok values) : items'.mapM read = .ok values := by
  induction h generalizing values with
  | nil => exact hvalues
  | @cons item item' items items' hitem hitems ih =>
    cases values with
    | nil => exact absurd (mapM_eq_ok_nil_iff.mp hvalues) (List.cons_ne_nil _ _)
    | cons value values =>
      obtain ⟨_, _, heq, hfirst, hrest⟩ := mapM_eq_ok_cons_iff.mp hvalues
      obtain ⟨rfl, rfl⟩ := List.cons.inj heq
      exact mapM_eq_ok_cons_iff.mpr
        ⟨item', items', rfl, hread item item' value hitem hfirst, ih hrest⟩

end Json

/-! ## What is kept -/

/-- The members of an object, or the items of a list under the names of the fields. -/
def viewOf (fields : List Field) : Json → List Member
  | .object members => members
  | .list items => (fields.map Field.name).zip items
  | _ => []

/-- The sheet that a value is read as, be it an object or a list. -/
def Sheet.decode? (json : Json) : Option Sheet :=
  match json with
  | .list [_, _] | .object _ => ofMembers? (viewOf Record.sheet.fields json)
  | _ => none

/-- What is read of one value as a record is read of the other one, too. -/
def Role.Keeps (json json' : Json) : Role → Prop
  | .sheet => ∀ sheet, Sheet.decode? json = some sheet → Sheet.decode? json' = some sheet
  | .node => ∀ node, Node.ofJson json = .ok node →
      Node.ofJson json' = .ok node ∧ (Node.namesKind json → Node.namesKind json')
  | .branch => ∀ branch, Branch.ofJson Node.ofJson json = .ok branch →
      Branch.ofJson Node.ofJson json' = .ok branch
  | .value => ∀ value, Value.ofJson json = .ok value → Value.ofJson json' = .ok value
  | .location => ∀ location, Location.ofJson json = .ok location →
      Location.ofJson json' = .ok location
  | .position => ∀ position, Position.ofJson json = .ok position →
      Position.ofJson json' = .ok position

namespace Expected

/-- What is expected and read of one value is read of the other one, too. -/
def Keeps (json json' : Json) : Expected → Prop
  | .one role => role.Keeps json json'
  | .many role => ∀ items, json = .list items →
      ∃ items', json' = .list items' ∧ List.Forall₂ (role.Keeps · ·) items items'
  | _ => True

structure Kept (e : Expected) (json json' : Json) : Prop where
  alike : Alike e json json'
  keeps : e.Keeps json json'

/-- Of the second value everything is read that is read of the first one. -/
def Respects {α : Type} (e : Expected) (read : Json → Except Mismatch α) : Prop :=
  ∀ ⦃json json' value⦄, e.Kept json json' → read json = .ok value → read json' = .ok value

end Expected

theorem Role.keeps_refl (role : Role) (json : Json) : role.Keeps json json := by
  cases role with
  | node => exact fun node h => ⟨h, id⟩
  | _ => exact fun _ h => h

theorem Expected.keeps_refl (e : Expected) (json : Json) : e.Keeps json json := by
  cases e with
  | one role => exact role.keeps_refl json
  | many role =>
    exact fun items h => ⟨items, h, List.forall₂_same.mpr fun item _ => role.keeps_refl item⟩
  | _ => exact trivial

theorem Expected.Kept.refl (e : Expected) (json : Json) : e.Kept json json :=
  ⟨.refl e json, e.keeps_refl json⟩

/-! ## What fields hold -/

namespace Json

variable {α : Type} {e : Expected} {read : Json → Except Mismatch α}

theorem respects_asString : e.Respects asString := by
  intro json json' s h hread
  cases asString_eq_ok_iff.mp hread
  rw [h.alike.eq_string]
  exact hread

theorem respects_asWord : e.Respects asWord := by
  intro json json' n h hread
  cases asWord_eq_ok_iff.mp hread
  rw [h.alike.eq_number]
  exact hread

theorem respects_asOption (hread : e.Respects read) : e.Respects (asOption read) := by
  intro json json' value h hvalue
  cases value with
  | none =>
    obtain rfl := asOption_eq_ok_none_iff.mp hvalue
    rw [h.alike.eq_null]
    rfl
  | some value =>
    have hnull : json ≠ .null := by
      rintro rfl
      cases hvalue
    have hnull' : json' ≠ .null := by
      rintro rfl
      exact hnull h.alike.null_eq
    have hjson : read json = .ok value := by
      unfold asOption at hvalue
      split at hvalue
      · exact absurd rfl hnull
      · cases hresult : read json with
        | error what =>
          rw [hresult] at hvalue
          cases hvalue
        | ok value' =>
          rw [hresult] at hvalue
          cases hvalue
          rfl
    exact asOption_of_ne_null hnull' (hread h hjson)

theorem respects_asList {role : Role}
    (hread : ∀ {json json' value}, role.Keeps json json' → read json = .ok value →
      read json' = .ok value) : (Expected.many role).Respects (asList read) := by
  intro json json' values h hvalues
  obtain ⟨items, rfl, hitems⟩ := asList_eq_ok_iff.mp hvalues
  obtain ⟨items', rfl, hforall⟩ := h.keeps items rfl
  refine mapM_of_forall₂ ?_ hforall hitems
  intro json json' value hkeeps
  exact hread hkeeps

theorem respects_strings : Expected.anything.Respects (asList asString) := by
  intro json json' values h hvalues
  obtain ⟨items, rfl, hitems⟩ := asList_eq_ok_iff.mp hvalues
  obtain ⟨items', rfl, hforall⟩ := h.alike.eq_list
  refine mapM_of_forall₂ ?_ hforall hitems
  intro json json' s halike hread
  exact respects_asString ⟨halike, trivial⟩ hread

end Json

theorem Node.Kind.respects : Expected.anything.Respects Node.Kind.ofJson := by
  intro json json' kind h hread
  cases json with
  | string s => rwa [h.alike.eq_string]
  | number n => rwa [h.alike.eq_number]
  | _ => cases hread

theorem asNothing_of_alike {json json' : Json} (h : Alike .anything json json')
    (hread : asNothing json = .ok ()) : asNothing json' = .ok () := by
  unfold asNothing at hread
  split at hread
  · rw [h.eq_null]
    rfl
  · obtain ⟨between, members', rfl, hperm, hmembers⟩ := h.eq_object
    obtain rfl := List.perm_nil.mp hperm.symm
    obtain rfl := List.forall₂_nil_left_iff.mp hmembers
    rfl
  · cases hread

theorem Branch.Kind.respects : Expected.anything.Respects Branch.Kind.ofJson := by
  intro json json' kind h hread
  unfold Branch.Kind.ofJson at hread
  split at hread
  · rw [h.alike.eq_string]
    exact hread
  · rename_i name content
    obtain ⟨content', rfl, halike⟩ := h.alike.eq_single
    cases hnothing : asNothing content with
    | error what =>
      rw [hnothing] at hread
      cases hname : Json.named Branch.Kind.name all name <;> rw [hname] at hread <;> cases hread
    | ok =>
      rw [hnothing] at hread
      change (Json.named Branch.Kind.name all name >>= fun kind =>
        asNothing content' >>= fun _ => pure kind) = _
      rw [asNothing_of_alike halike hnothing]
      exact hread
  · cases hread
  · cases hread

/-! ## Fields -/

namespace Field

/-- What a field holds is kept, or it is the default and missing on one side. -/
def Kept (field : Field) : Option Json → Option Json → Prop
  | some json, some json' => field.holds.Kept json json'
  | none, none => True
  | some json, none => field.default? = some json
  | none, some json' => field.default? = some json'

/-- What members hold in a field that none of them repeats is kept by the other members. -/
def KeptIn (members members' : List Member) (field : Field) : Prop :=
  (valuesOf members field.name).length ≤ 1 →
    (valuesOf members' field.name).length ≤ 1 ∧
      field.Kept (valuesOf members field.name).head? (valuesOf members' field.name).head?

theorem kept_refl (field : Field) (json? : Option Json) : field.Kept json? json? := by
  cases json? with
  | none => exact trivial
  | some json => exact .refl field.holds json

theorem keptIn_of_eq {field : Field} {members members' : List Member}
    (h : valuesOf members field.name = valuesOf members' field.name) :
    field.KeptIn members members' := by
  intro hlength
  rw [← h]
  exact ⟨hlength, field.kept_refl _⟩

theorem keptIn_permuted {field : Field} {members members' : List Member}
    (h : members.Perm members') : field.KeptIn members members' := by
  intro hlength
  have hperm : (valuesOf members field.name).Perm (valuesOf members' field.name) :=
    (h.filter _).map _
  have hsame : valuesOf members field.name = valuesOf members' field.name := by
    rcases hvalues : valuesOf members field.name with _ | ⟨json, _ | ⟨second, rest⟩⟩
    · rw [hvalues] at hperm
      exact (List.perm_nil.mp hperm.symm).symm
    · rw [hvalues] at hperm
      exact (List.perm_singleton.mp hperm.symm).symm
    · simp [hvalues] at hlength
  exact keptIn_of_eq hsame hlength

theorem valuesOf_append (first rest : List Member) (name : String) :
    valuesOf (first ++ rest) name = valuesOf first name ++ valuesOf rest name := by
  simp [valuesOf]

theorem valuesOf_eq_nil_of_length {earlier later : List Member} {name : String} {json : Json}
    (h : (valuesOf (earlier ++ (name, json) :: later) name).length ≤ 1) :
    valuesOf earlier name = [] ∧ valuesOf later name = [] := by
  rw [valuesOf_append, Json.valuesOf_cons, if_pos rfl, List.length_append, List.length_cons] at h
  constructor <;> exact List.eq_nil_of_length_eq_zero (by omega)

theorem keptIn_replaced {field : Field} {earlier later : List Member} {name : String}
    {json json' : Json} (h : field.name = name → field.holds.Kept json json') :
    field.KeptIn (earlier ++ (name, json) :: later) (earlier ++ (name, json') :: later) := by
  by_cases hname : field.name = name
  · intro hlength
    subst hname
    obtain ⟨hbefore, hafter⟩ := valuesOf_eq_nil_of_length hlength
    simp only [valuesOf_append, Json.valuesOf_cons, ↓reduceIte, hbefore, hafter]
    exact ⟨Nat.le_refl 1, h rfl⟩
  · apply keptIn_of_eq
    simp only [valuesOf_append, Json.valuesOf_cons, if_neg (Ne.symm hname)]

theorem keptIn_inserted {field : Field} {earlier later : List Member} {name : String}
    {json : Json} (h : field.name ≠ name) :
    field.KeptIn (earlier ++ later) (earlier ++ (name, json) :: later) := by
  apply keptIn_of_eq
  simp only [valuesOf_append, Json.valuesOf_cons, if_neg (Ne.symm h)]

theorem keptIn_written {field : Field} {earlier later : List Member} {name : String}
    {default : Json} (hdefault : field.name = name → field.default? = some default)
    (habsent : valuesOf (earlier ++ later) name = []) :
    field.KeptIn (earlier ++ later) (earlier ++ (name, default) :: later) := by
  by_cases hname : field.name = name
  · intro _
    subst hname
    rw [valuesOf_append] at habsent
    obtain ⟨hbefore, hafter⟩ := List.append_eq_nil_iff.mp habsent
    simp only [valuesOf_append, Json.valuesOf_cons, ↓reduceIte, hbefore, hafter]
    exact ⟨Nat.le_refl 1, hdefault rfl⟩
  · exact keptIn_inserted hname

theorem keptIn_leftOut {field : Field} {earlier later : List Member} {name : String}
    {default : Json} (hdefault : field.name = name → field.default? = some default) :
    field.KeptIn (earlier ++ (name, default) :: later) (earlier ++ later) := by
  by_cases hname : field.name = name
  · intro hlength
    subst hname
    obtain ⟨hbefore, hafter⟩ := valuesOf_eq_nil_of_length hlength
    simp only [valuesOf_append, Json.valuesOf_cons, ↓reduceIte, hbefore, hafter]
    exact ⟨Nat.zero_le 1, hdefault rfl⟩
  · apply keptIn_of_eq
    simp only [valuesOf_append, Json.valuesOf_cons, if_neg (Ne.symm hname)]

end Field

/-! ## Shapes -/

namespace Json.Shape

variable {α β : Type}

/-- A shape gathers the same where all these fields are kept. -/
def Obeys (fields : List Field) (shape : Shape α) : Prop :=
  ∀ ⦃find find' : Lookup⦄ ⦃lack lack' : String → Mismatch⦄ ⦃value : α⦄,
    (∀ field ∈ fields,
      field.Kept ((find field.name).map Prod.snd) ((find' field.name).map Prod.snd)) →
      shape.gather find lack = .all value → shape.gather find' lack' = .all value

theorem gather_required {name : String} {read : Json → Except Mismatch α} {find : Lookup}
    {lack : String → Mismatch} {value : α} :
    (required name read).gather find lack = .all value ↔
      ∃ json, (find name).map Prod.snd = some json ∧ read json = .ok value := by
  unfold required
  rcases hfind : find name with _ | ⟨index, json⟩
  · simp [hfind]
  · cases hread : read json <;> simp [hfind, hread]

theorem gather_optional {name : String} {default : α} {read : Json → Except Mismatch α}
    {find : Lookup} {lack : String → Mismatch} {value : α} :
    (optional name default read).gather find lack = .all value ↔
      ((find name).map Prod.snd = none ∧ value = default) ∨
        ∃ json, (find name).map Prod.snd = some json ∧ read json = .ok value := by
  unfold optional
  rcases hfind : find name with _ | ⟨index, json⟩
  · simp [hfind, eq_comm]
  · cases hread : read json <;> simp [hfind, hread]

theorem obeys_required (name : String) {e : Expected} {read : Json → Except Mismatch α}
    (hread : e.Respects read) : (required name read).Obeys [⟨name, e, none⟩] := by
  intro find find' lack lack' value hkept hgather
  have hfield := hkept _ List.mem_cons_self
  obtain ⟨json, hfind, hjson⟩ := gather_required.mp hgather
  rw [gather_required]
  simp only [hfind] at hfield
  rcases hfind' : (find' name).map Prod.snd with _ | json'
  · rw [hfind'] at hfield
    cases hfield
  · rw [hfind'] at hfield
    exact ⟨json', rfl, hread hfield hjson⟩

theorem obeys_optional (name : String) (default : α) {e : Expected}
    {read : Json → Except Mismatch α} (hread : e.Respects read) {json : Json}
    (hdefault : read json = .ok default) :
    (optional name default read).Obeys [⟨name, e, some json⟩] := by
  intro find find' lack lack' value hkept hgather
  have hfield := hkept _ List.mem_cons_self
  rw [gather_optional] at hgather ⊢
  rcases hgather with ⟨hfind, rfl⟩ | ⟨found, hfind, hvalue⟩
  · -- If the field was missing, it is missing still, or its default is there.
    rcases hfind' : (find' name).map Prod.snd with _ | found'
    · exact .inl ⟨rfl, rfl⟩
    · simp only [hfind, hfind', Field.Kept] at hfield
      cases hfield
      exact .inr ⟨_, rfl, hdefault⟩
  · rcases hfind' : (find' name).map Prod.snd with _ | found'
    · simp only [hfind, hfind', Field.Kept] at hfield
      cases hfield
      cases hdefault.symm.trans hvalue
      exact .inl ⟨rfl, rfl⟩
    · simp only [hfind, hfind'] at hfield
      exact .inr ⟨found', rfl, hread hfield hvalue⟩

theorem Obeys.seq {fields fields' : List Field} {s : Shape (α → β)} {t : Shape α}
    (h : s.Obeys fields) (h' : t.Obeys fields') : (s <*> t).Obeys (fields ++ fields') := by
  intro find find' lack lack' value hkept hgather
  obtain ⟨f, a, hf, ha, rfl⟩ := combine_eq_all hgather
  have hf' : s.gather find' lack' = .all f :=
    h (fun field hmem => hkept field (List.mem_append_left _ hmem)) hf
  have ha' : t.gather find' lack' = .all a :=
    h' (fun field hmem => hkept field (List.mem_append_right _ hmem)) ha
  change (s.gather _ _).combine _ (t.gather _ _) = _
  rw [hf', ha']
  rfl

theorem Obeys.map {fields : List Field} {s : Shape α} (f : α → β) (h : s.Obeys fields) :
    (f <$> s).Obeys fields := by
  have hpure : (pure f : Shape (α → β)).Obeys [] := fun _ _ _ _ _ _ hgather => hgather
  exact hpure.seq h

end Json.Shape

end StyleScope
