import StyleScope.Proofs.Sheet.Edits

/-!
# Values that are spelled alike

An edit of a text keeps the value that is spelled, or changes it in a way that no record tells. Of
the members of a sheet that are no fields only the names matter, which may be all that they spell.
-/

namespace StyleScope

open Json (Blanks Letter Spelling Member)

/-- What an edit of a text of which something is expected does to the value that it spells. -/
inductive Json.Alike : Expected → Json → Json → Prop
  | refl (e : Expected) (json : Json) : Alike e json json
  | permuted {e : Expected} {members members' : List Member} (h : members.Perm members') :
      Alike e (.object members) (.object members')
  | item {e : Expected} {earlier later : List Json} {json json' : Json}
      (h : Alike (e.ofItem (some (.list (earlier ++ json :: later))) earlier.length) json json') :
      Alike e (.list (earlier ++ json :: later)) (.list (earlier ++ json' :: later))
  | member {e : Expected} {earlier later : List Member} {name : String} {json json' : Json}
      (h : Alike (e.ofMember (some (.object (earlier ++ (name, json) :: later))) (some name)) json
        json') :
      Alike e (.object (earlier ++ (name, json) :: later))
        (.object (earlier ++ (name, json') :: later))
  | written {e : Expected} {earlier later : List Member} {record : Record} {field : Field}
      {default : Json} (hrecord : e.record? (some (.object (earlier ++ later))) = some record)
      (hfield : field ∈ record.fields) (hdefault : field.default? = some default)
      (habsent : ∀ other ∈ earlier ++ later, other.1 ≠ field.name) :
      Alike e (.object (earlier ++ later)) (.object (earlier ++ (field.name, default) :: later))
  | leftOut {e : Expected} {earlier later : List Member} {record : Record} {field : Field}
      {default : Json}
      (hrecord : e.record? (some (.object (earlier ++ (field.name, default) :: later))) =
        some record)
      (hfield : field ∈ record.fields) (hdefault : field.default? = some default) :
      Alike e (.object (earlier ++ (field.name, default) :: later)) (.object (earlier ++ later))
  | inserted {e : Expected} {earlier later : List Member} {record : Record} {name : String}
      {json : Json} (hrecord : e.record? (some (.object (earlier ++ later))) = some record)
      (hother : ∀ field ∈ record.fields, field.name ≠ name) :
      Alike e (.object (earlier ++ later)) (.object (earlier ++ (name, json) :: later))

namespace Json

/-! ## Lists of values -/

section

variable {α β : Type} {f : α → Option β} {a : α} {earlier later : List α} {values : List β}

theorem mapM_cons_eq_some_iff :
    (a :: later).mapM f = some values ↔
      ∃ b after, f a = some b ∧ later.mapM f = some after ∧ values = b :: after := by
  rw [List.mapM_cons]
  cases f a <;> cases later.mapM f <;> simp [eq_comm]

theorem mapM_append_eq_some_iff :
    (earlier ++ later).mapM f = some values ↔
      ∃ before after, earlier.mapM f = some before ∧ later.mapM f = some after ∧
        values = before ++ after := by
  rw [List.mapM_append]
  cases earlier.mapM f <;> cases later.mapM f <;> simp [eq_comm]

theorem mapM_insert_eq_some_iff :
    (earlier ++ a :: later).mapM f = some values ↔
      ∃ before b after, earlier.mapM f = some before ∧ f a = some b ∧ later.mapM f = some after ∧
        values = before ++ b :: after := by
  simp only [mapM_append_eq_some_iff, mapM_cons_eq_some_iff]
  constructor
  · rintro ⟨before, _, hbefore, ⟨b, after, hb, hafter, rfl⟩, rfl⟩
    exact ⟨before, b, after, hbefore, hb, hafter, rfl⟩
  · rintro ⟨before, b, after, hbefore, hb, hafter, rfl⟩
    exact ⟨before, _, hbefore, ⟨b, after, hb, hafter, rfl⟩, rfl⟩

theorem length_of_mapM (h : earlier.mapM f = some values) : values.length = earlier.length := by
  induction earlier generalizing values with
  | nil =>
    cases h
    rfl
  | cons a earlier ih =>
    obtain ⟨b, after, -, hafter, rfl⟩ := mapM_cons_eq_some_iff.mp h
    rw [List.length_cons, List.length_cons, ih hafter]

theorem exists_of_mem_mapM {b : β} (h : earlier.mapM f = some values) (hb : b ∈ values) :
    ∃ a ∈ earlier, f a = some b := by
  induction earlier generalizing values with
  | nil =>
    cases h
    cases hb
  | cons a earlier ih =>
    obtain ⟨first, after, hfirst, hafter, rfl⟩ := mapM_cons_eq_some_iff.mp h
    rcases List.mem_cons.mp hb with rfl | hb
    · exact ⟨a, List.mem_cons_self, hfirst⟩
    · obtain ⟨a', hmem, heq⟩ := ih hafter hb
      exact ⟨a', List.mem_cons_of_mem a hmem, heq⟩

theorem exists_mapM_of_perm (h : earlier.Perm later) (hvalues : earlier.mapM f = some values) :
    ∃ values', later.mapM f = some values' ∧ values.Perm values' := by
  induction h generalizing values with
  | nil => exact ⟨values, hvalues, .refl values⟩
  | cons a _ ih =>
    obtain ⟨b, rest, hb, hrest, rfl⟩ := mapM_cons_eq_some_iff.mp hvalues
    obtain ⟨rest', hrest', hperm⟩ := ih hrest
    exact ⟨b :: rest', mapM_cons_eq_some_iff.mpr ⟨b, rest', hb, hrest', rfl⟩, hperm.cons b⟩
  | swap a a' later =>
    obtain ⟨b, _, hb, hmore, rfl⟩ := mapM_cons_eq_some_iff.mp hvalues
    obtain ⟨b', rest, hb', hrest, rfl⟩ := mapM_cons_eq_some_iff.mp hmore
    refine ⟨b' :: b :: rest, ?_, .swap b' b rest⟩
    exact mapM_cons_eq_some_iff.mpr
      ⟨b', _, hb', mapM_cons_eq_some_iff.mpr ⟨b, rest, hb, hrest, rfl⟩, rfl⟩
  | trans _ _ ih ih' =>
    obtain ⟨between, hbetween, hperm⟩ := ih hvalues
    obtain ⟨values', hvalues', hperm'⟩ := ih' hbetween
    exact ⟨values', hvalues', hperm.trans hperm'⟩

end

namespace Spelling

/-! ## What counts of a value -/

/-- Whether it does not matter what a member with a name holds: it is no field of a sheet. What is
no field of another record has to mean something. -/
def ignores (e : Expected) (name : String) : Bool :=
  e = .one .sheet ∧ ∀ field ∈ Record.sheet.fields, field.name ≠ name

/-- What the value of a member comes to. -/
def memberAs? (e : Expected) (name : String) (value : Spelling) : Option Json :=
  if ignores e name then some .null else value.value?

def membersAs? (e : Expected) (members : List Member) : Option (List Json.Member) :=
  members.mapM fun member =>
    (Letter.string? member.name).bind fun name => (memberAs? e name member.value).map (name, ·)

/-- What a value comes to that is expected to be a sheet or something else. -/
def valueAs? (e : Expected) : Spelling → Option Json
  | object _ members => (membersAs? e members).map .object
  | s => s.value?

theorem items?_eq (items : List Item) :
    items? items = items.mapM fun item => item.value.value? := by
  induction items with
  | nil => rfl
  | cons item items ih =>
    obtain ⟨before, value, after⟩ := item
    rw [items?, List.mapM_cons, ih]
    cases value.value? <;> simp [Option.map_eq_bind]

theorem members?_eq {e : Expected} (h : e ≠ .one .sheet) (members : List Member) :
    members? members = membersAs? e members := by
  have hread : ∀ name value, memberAs? e name value = value.value? := by
    intro name value
    simp [memberAs?, ignores, h]
  unfold membersAs?
  simp only [hread]
  induction members with
  | nil => rfl
  | cons member members ih =>
    obtain ⟨before, name, afterName, beforeValue, value, after⟩ := member
    rw [members?, List.mapM_cons, ih]
    cases Letter.string? name <;> cases value.value? <;> simp [Option.map_eq_bind]

theorem value?_eq {e : Expected} (h : e ≠ .one .sheet) (s : Spelling) :
    s.value? = s.valueAs? e := by
  cases s with
  | object inside members => rw [value?, members?_eq h, valueAs?]
  | _ => rfl

variable {e : Expected} {s : Spelling} {json : Json}

theorem record?_eq (h : s.valueAs? e = some json) : e.record? s.value? = e.record? (some json) := by
  by_cases hsheet : e = .one .sheet
  · rw [hsheet]
    rfl
  · rw [value?_eq hsheet, h]

theorem ofMember_eq (h : s.valueAs? e = some json) (name? : Option String) :
    e.ofMember s.value? name? = e.ofMember (some json) name? := by
  rw [Expected.ofMember, record?_eq h]
  rfl

theorem ofItem_eq (h : s.valueAs? e = some json) (index : Nat) :
    e.ofItem s.value? index = e.ofItem (some json) index := by
  cases e with
  | many role => rfl
  | _ => rw [Expected.ofItem, record?_eq h, Expected.ofItem] <;> nofun

end Spelling

end Json

/-! ## Sheets are not inside of anything -/

/-- Neither a sheet nor a list of sheets. -/
def Expected.Inner (e : Expected) : Prop := e ≠ .one .sheet ∧ e ≠ .many .sheet

theorem inner_anything : Expected.anything.Inner := by
  simp [Expected.Inner]

theorem inner_of_mem_fields {record : Record} {field : Field} (h : field ∈ record.fields) :
    field.holds.Inner := by
  revert field
  unfold Expected.Inner
  rcases record with _ | kind | _ | _ | _ | _
  rotate_left
  · cases kind <;> decide
  all_goals decide

theorem inner_getD {field? : Option Field} (h : ∀ field ∈ field?, field.holds.Inner) :
    ((field?.map Field.holds).getD .anything).Inner := by
  cases field? with
  | none => exact inner_anything
  | some field => exact h field rfl

namespace Expected

theorem inner_ofMember (e : Expected) (json? : Option Json) (name? : Option String) :
    (e.ofMember json? name?).Inner := by
  apply inner_getD
  intro field hfield
  obtain ⟨record, -, hfield⟩ := Option.bind_eq_some_iff.mp hfield
  obtain ⟨name, -, hfind⟩ := Option.bind_eq_some_iff.mp hfield
  exact inner_of_mem_fields (List.mem_of_find?_eq_some hfind)

theorem inner_ofItem {e : Expected} (h : e ≠ .many .sheet) (json? : Option Json) (index : Nat) :
    (e.ofItem json? index).Inner := by
  have hfields : ∀ field ∈ (e.record? json?).bind (fun record => record.fields[index]?),
      field.holds.Inner := by
    intro field hfield
    obtain ⟨record, -, hfield⟩ := Option.bind_eq_some_iff.mp hfield
    exact inner_of_mem_fields (List.mem_of_getElem? hfield)
  cases e with
  | many role =>
    refine ⟨?_, nofun⟩
    intro heq
    cases heq
    exact h rfl
  | _ => exact inner_getD hfields

end Expected

/-! ## Edits -/

namespace Json.Spelling

variable {e : Expected} {s s' : Spelling} {json : Json}

theorem object_valueAs?_eq_some {inside : Blanks} {members : List Member} :
    (object inside members).valueAs? e = some json ↔
      ∃ spelled, membersAs? e members = some spelled ∧ json = .object spelled := by
  simp only [valueAs?, Option.map_eq_some_iff, @eq_comm _ json]

theorem list_valueAs?_eq_some {inside : Blanks} {items : List Item} :
    (list inside items).valueAs? e = some json ↔
      ∃ spelled, items.mapM (fun item => item.value.value?) = some spelled ∧
        json = .list spelled := by
  simp only [valueAs?, value?, items?_eq, Option.map_eq_some_iff, @eq_comm _ json]

theorem membersAs?_insert {earlier later : List Member} {member : Member}
    {spelled : List Json.Member} :
    membersAs? e (earlier ++ member :: later) = some spelled ↔
      ∃ before name json after, membersAs? e earlier = some before ∧
        Letter.string? member.name = some name ∧ memberAs? e name member.value = some json ∧
          membersAs? e later = some after ∧ spelled = before ++ (name, json) :: after := by
  unfold membersAs?
  rw [mapM_insert_eq_some_iff]
  constructor
  · rintro ⟨before, b, after, hbefore, hb, hafter, rfl⟩
    obtain ⟨name, hname, hb⟩ := Option.bind_eq_some_iff.mp hb
    obtain ⟨json, hjson, rfl⟩ := Option.map_eq_some_iff.mp hb
    exact ⟨before, name, json, after, hbefore, hname, hjson, hafter, rfl⟩
  · rintro ⟨before, name, json, after, hbefore, hname, hjson, hafter, rfl⟩
    refine ⟨before, (name, json), after, hbefore, ?_, hafter, rfl⟩
    rw [hname, Option.bind_some, hjson]
    rfl

theorem membersAs?_append {earlier later : List Member} {spelled : List Json.Member} :
    membersAs? e (earlier ++ later) = some spelled ↔
      ∃ before after, membersAs? e earlier = some before ∧ membersAs? e later = some after ∧
        spelled = before ++ after :=
  mapM_append_eq_some_iff

theorem membersAs?_respelled {members members' : List Member}
    (h : List.Forall₂ Member.Respelled members members') :
    membersAs? e members = membersAs? e members' := by
  unfold membersAs?
  induction h with
  | nil => rfl
  | cons hmember _ ih =>
    obtain ⟨hname, hvalue⟩ := hmember
    rw [List.mapM_cons, List.mapM_cons, ih, hname.string?_eq, hvalue]

theorem exists_name_of_mem {members : List Member} {spelled : List Json.Member}
    (h : membersAs? e members = some spelled) :
    ∀ member ∈ spelled, ∃ other ∈ members, Letter.string? other.name = some member.1 := by
  intro member hmember
  obtain ⟨other, hother, hread⟩ := exists_of_mem_mapM h hmember
  obtain ⟨name, hname, hread⟩ := Option.bind_eq_some_iff.mp hread
  obtain ⟨json, -, rfl⟩ := Option.map_eq_some_iff.mp hread
  exact ⟨other, hother, hname⟩

theorem memberAs?_field {json? : Option Json} {record : Record}
    (hrecord : e.record? json? = some record) {field : Field} (hfield : field ∈ record.fields)
    (value : Spelling) : memberAs? e field.name value = value.value? := by
  have hcounts : ¬ ignores e field.name := by
    rw [ignores, decide_eq_true_eq]
    rintro ⟨rfl, hother⟩
    cases hrecord
    exact hother field hfield rfl
  exact if_neg hcounts

theorem exists_memberAs? {value : Spelling} (h : value.value? = some json) (name : String) :
    ∃ json', memberAs? e name value = some json' := by
  unfold memberAs?
  split
  · exact ⟨.null, rfl⟩
  · exact ⟨json, h⟩

/-- An edit of a text does to its value what no record tells. -/
theorem alike_of_edit (h : Edit e s s') (he : e ≠ .many .sheet) (hjson : s.valueAs? e = some json) :
    ∃ json', s'.valueAs? e = some json' ∧ Alike e json json' := by
  induction h generalizing json with
  | string h =>
    refine ⟨json, ?_, .refl _ _⟩
    rw [← hjson, valueAs?, valueAs?, value?, value?, h.string?_eq]
    all_goals
      intro inside members heq
      cases heq
  | @list e inside inside' items items' h =>
    have hitems : items.mapM (fun item => item.value.value?) =
        items'.mapM (fun item => item.value.value?) := by
      have hmap := congrArg (List.mapM value?) h
      rw [List.mapM_map, List.mapM_map] at hmap
      exact hmap
    obtain ⟨spelled, hspelled, rfl⟩ := list_valueAs?_eq_some.mp hjson
    exact ⟨_, list_valueAs?_eq_some.mpr ⟨spelled, hitems ▸ hspelled, rfl⟩, .refl _ _⟩
  | object h =>
    obtain ⟨spelled, hspelled, rfl⟩ := object_valueAs?_eq_some.mp hjson
    rw [membersAs?_respelled h] at hspelled
    exact ⟨_, object_valueAs?_eq_some.mpr ⟨spelled, hspelled, rfl⟩, .refl _ _⟩
  | permuted h =>
    obtain ⟨spelled, hspelled, rfl⟩ := object_valueAs?_eq_some.mp hjson
    obtain ⟨spelled', hspelled', hperm⟩ := exists_mapM_of_perm h hspelled
    exact ⟨_, object_valueAs?_eq_some.mpr ⟨spelled', hspelled', rfl⟩, .permuted hperm⟩
  | @item e inside before after earlier later value value' h ih =>
    have hexpected := ofItem_eq hjson earlier.length
    have hinner := Expected.inner_ofItem he
      (list inside (earlier ++ ⟨before, value, after⟩ :: later)).value? earlier.length
    obtain ⟨_, hspelled, rfl⟩ := list_valueAs?_eq_some.mp hjson
    obtain ⟨first, json, rest, hfirst, hvalue, hrest, rfl⟩ := mapM_insert_eq_some_iff.mp hspelled
    rw [value?_eq hinner.1] at hvalue
    obtain ⟨json', hvalue', halike⟩ := ih hinner.2 hvalue
    rw [← value?_eq hinner.1] at hvalue'
    refine ⟨_, list_valueAs?_eq_some.mpr
      ⟨_, mapM_insert_eq_some_iff.mpr ⟨first, json', rest, hfirst, hvalue', hrest, rfl⟩, rfl⟩, ?_⟩
    rw [hexpected, ← length_of_mapM hfirst] at halike
    exact .item halike
  | @member e inside before afterName beforeValue after name earlier later value value' h ih =>
    have hexpected := ofMember_eq hjson (Letter.string? name)
    have hinner := Expected.inner_ofMember e (object inside (earlier ++
      ⟨before, name, afterName, beforeValue, value, after⟩ :: later)).value? (Letter.string? name)
    obtain ⟨_, hspelled, rfl⟩ := object_valueAs?_eq_some.mp hjson
    obtain ⟨first, string, json, rest, hfirst, hname, hvalue, hrest, rfl⟩ :=
      membersAs?_insert.mp hspelled
    have hspelled' : ∀ json', memberAs? e string value' = some json' →
        (object inside (earlier ++
          ⟨before, name, afterName, beforeValue, value', after⟩ :: later)).valueAs? e =
            some (.object (first ++ (string, json') :: rest)) := fun json' hvalue' =>
      object_valueAs?_eq_some.mpr ⟨_, membersAs?_insert.mpr
        ⟨first, string, json', rest, hfirst, hname, hvalue', hrest, rfl⟩, rfl⟩
    unfold memberAs? at hvalue hspelled'
    split at hvalue
    · -- What the member holds does not count, before or after.
      cases hvalue
      exact ⟨_, hspelled' .null (if_pos ‹_›), .refl _ _⟩
    · rw [value?_eq hinner.1] at hvalue
      obtain ⟨json', hvalue', halike⟩ := ih hinner.2 hvalue
      rw [← value?_eq hinner.1] at hvalue'
      refine ⟨_, hspelled' json' (by rw [if_neg ‹_›, hvalue']), ?_⟩
      rw [hexpected, hname] at halike
      exact .member halike
  | @written e inside earlier later record field default member hrecord hfield hdefault habsent
      hname hvalue =>
    rw [record?_eq hjson] at hrecord
    obtain ⟨_, hspelled, rfl⟩ := object_valueAs?_eq_some.mp hjson
    obtain ⟨first, rest, hfirst, hrest, rfl⟩ := membersAs?_append.mp hspelled
    rw [← memberAs?_field hrecord hfield] at hvalue
    refine ⟨_, object_valueAs?_eq_some.mpr ⟨_, membersAs?_insert.mpr
      ⟨first, field.name, default, rest, hfirst, hname, hvalue, hrest, rfl⟩, rfl⟩, ?_⟩
    refine .written hrecord hfield hdefault ?_
    intro other hother heq
    obtain ⟨member, hmember, hnamed⟩ := exists_name_of_mem hspelled other hother
    exact habsent member hmember (hnamed.trans (congrArg some heq))
  | @leftOut e inside earlier later record field default member hrecord hfield hdefault hname
      hvalue =>
    rw [record?_eq hjson] at hrecord
    obtain ⟨_, hspelled, rfl⟩ := object_valueAs?_eq_some.mp hjson
    obtain ⟨first, string, json, rest, hfirst, hname', hvalue', hrest, rfl⟩ :=
      membersAs?_insert.mp hspelled
    cases hname.symm.trans hname'
    rw [memberAs?_field hrecord hfield] at hvalue'
    cases hvalue.symm.trans hvalue'
    refine ⟨_, object_valueAs?_eq_some.mpr ⟨_, membersAs?_append.mpr
      ⟨first, rest, hfirst, hrest, rfl⟩, rfl⟩, .leftOut hrecord hfield hdefault⟩
  | @inserted e inside earlier later record member name json' hrecord hname hother hvalue =>
    rw [record?_eq hjson] at hrecord
    obtain ⟨_, hspelled, rfl⟩ := object_valueAs?_eq_some.mp hjson
    obtain ⟨first, rest, hfirst, hrest, rfl⟩ := membersAs?_append.mp hspelled
    obtain ⟨json, hjson⟩ := exists_memberAs? hvalue name
    exact ⟨_, object_valueAs?_eq_some.mpr ⟨_, membersAs?_insert.mpr
      ⟨first, name, json, rest, hfirst, hname, hjson, hrest, rfl⟩, rfl⟩, .inserted hrecord hother⟩

end Json.Spelling

end StyleScope
