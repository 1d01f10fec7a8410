import Mathlib
import StyleScope.Json.Nesting

/-!
# Records that are written field by field

A record that is written as an object with its fields in their order is read back. What any record
can be follows from what its fields can hold.
-/

namespace StyleScope.Json

variable {α β : Type}

namespace Shape

/-- The shape gathers `value` where the `members` are found and nothing is found of the fields that
are `absent`. -/
def Reads (shape : Shape α) (members : List Member) (absent : List String) (value : α) : Prop :=
  ∀ (find : Lookup) (lack : String → Mismatch),
    (∀ member ∈ members, ∃ index, find member.1 = some (index, member.2)) →
      (∀ name ∈ absent, find name = none) → shape.gather find lack = .all value

namespace Reads

theorem pure (value : α) : Reads (Pure.pure value) [] [] value := by
  intro find lack _ _
  rfl

theorem required (name : String) {read : Json → Except Mismatch α} {json : Json} {value : α}
    (h : read json = .ok value) : Reads (.required name read) [(name, json)] [] value := by
  intro find lack hfind _
  obtain ⟨index, heq⟩ := hfind (name, json) List.mem_cons_self
  unfold Shape.required
  simp only [heq, h]

theorem optional (name : String) (default : α) {read : Json → Except Mismatch α} {json : Json}
    {value : α} (h : read json = .ok value) :
    Reads (.optional name default read) [(name, json)] [] value := by
  intro find lack hfind _
  obtain ⟨index, heq⟩ := hfind (name, json) List.mem_cons_self
  unfold Shape.optional
  simp only [heq, h]

theorem default (name : String) (default : α) (read : Json → Except Mismatch α) :
    Reads (.optional name default read) [] [name] default := by
  intro find lack _ habsent
  unfold Shape.optional
  simp only [habsent name List.mem_cons_self]

theorem seq {s : Shape (α → β)} {t : Shape α} {members members' : List Member}
    {absent absent' : List String} {f : α → β} {value : α} (h : s.Reads members absent f)
    (h' : t.Reads members' absent' value) :
    Reads (s <*> t) (members ++ members') (absent ++ absent') (f value) := by
  intro find lack hfind habsent
  have hleft : s.gather find lack = .all f := by
    apply h
    · intro m hm
      exact hfind m (List.mem_append_left _ hm)
    · intro name hn
      exact habsent name (List.mem_append_left _ hn)
  have hright : t.gather find lack = .all value := by
    apply h'
    · intro m hm
      exact hfind m (List.mem_append_right _ hm)
    · intro name hn
      exact habsent name (List.mem_append_right _ hn)
  change (s.gather find lack).combine _ (t.gather find lack) = _
  rw [hleft, hright]
  rfl

theorem map {s : Shape α} {members : List Member} {absent : List String} {value : α} (f : α → β)
    (h : s.Reads members absent value) : Reads (f <$> s) members absent (f value) :=
  (pure f).seq h

end Reads

/-! ## Members with different names -/

theorem firstNamed_of_mem {members : List Member} (hnodup : (members.map Prod.fst).Nodup)
    {member : Member} (h : member ∈ members) :
    ∃ index, firstNamed members member.1 = some (index, member.2) := by
  change ∃ index, (members.zipIdx.find? fun entry => entry.1.1 = member.1).map
    (fun entry => (entry.2, entry.1.2)) = some (index, member.2)
  rcases hfind : members.zipIdx.find? fun entry => entry.1.1 = member.1 with _ | ⟨other, index⟩
  · obtain ⟨index, hindex⟩ := List.mem_iff_getElem?.mp h
    have hmem := List.mk_mem_zipIdx_iff_getElem?.mpr hindex
    exact absurd (List.find?_eq_none.mp hfind _ hmem) (by simp)
  · -- Another member of that name would share it with this one.
    have hname : other.1 = member.1 := by simpa using List.find?_some hfind
    have hmem := List.fst_mem_of_mem_zipIdx (List.mem_of_find?_eq_some hfind)
    obtain rfl := List.inj_on_of_nodup_map hnodup hmem h hname
    rw [hfind]
    exact ⟨index, rfl⟩

theorem firstRepeat_eq_all (fields : List String) {members : List Member}
    (hnodup : (members.map Prod.fst).Nodup) : firstRepeat fields members = .all () := by
  unfold firstRepeat
  rw [List.find?_eq_none.mpr]
  rintro ⟨member, index⟩ hmem
  have hget : members[index]? = some member := List.mem_zipIdx_iff_getElem?.mp hmem
  rw [← List.take_append_drop index members, List.map_append] at hnodup
  have hlater : member.1 ∈ (members.drop index).map Prod.fst :=
    List.mem_map_of_mem (List.mem_of_getElem? (i := 0) (by rw [List.getElem?_drop]; exact hget))
  simpa using fun _ hearlier => List.disjoint_of_nodup_append hnodup hearlier hlater

theorem firstNamed_eq_none {members : List Member} {name : String}
    (h : name ∉ members.map Prod.fst) : firstNamed members name = none := by
  unfold firstNamed
  rw [List.find?_eq_none.mpr, Option.map_none]
  rintro ⟨member, index⟩ hmem heq
  rw [← of_decide_eq_true heq] at h
  exact h (List.mem_map_of_mem (List.fst_mem_of_mem_zipIdx hmem))

theorem Reads.ofMembers {shape : Shape α} {members : List Member} {absent : List String} {value : α}
    (h : shape.Reads members absent value) (hnames : (members.map Prod.fst ++ absent).Nodup) :
    shape.ofMembers members = .ok value := by
  have hmembers : (members.map Prod.fst).Nodup := (List.nodup_append.mp hnames).1
  have hgather : shape.gather (firstNamed members) .missing = .all value := by
    apply h
    · intro member hm
      exact firstNamed_of_mem hmembers hm
    · intro name hn
      apply firstNamed_eq_none
      intro hmem
      exact List.disjoint_of_nodup_append hnames hmem hn
  unfold Shape.ofMembers
  rw [firstRepeat_eq_all _ hmembers, hgather]
  rfl

end Shape

/-! ## Fields -/

theorem asList_map {read : Json → Except Mismatch α} {write : α → Json} {values : List α}
    (h : ∀ value ∈ values, read (write value) = .ok value) :
    asList read (.list (values.map write)) = .ok values := by
  change (values.map write).mapM read = _
  induction values with
  | nil => rfl
  | cons value values ih =>
    obtain ⟨hvalue, hvalues⟩ := List.forall_mem_cons.mp h
    rw [List.map_cons, List.mapM_cons, hvalue, ih hvalues]
    rfl

theorem asOption_of_ne_null {read : Json → Except Mismatch α} {json : Json} {value : α}
    (hnull : json ≠ .null) (h : read json = .ok value) : asOption read json = .ok (some value) := by
  cases json with
  | null => exact absurd rfl hnull
  | _ => simp only [asOption, h, Except.map]

theorem named_eq {nameOf : α → String} {kinds : List α}
    (hinj : ∀ a ∈ kinds, ∀ b ∈ kinds, nameOf a = nameOf b → a = b) {kind : α} (h : kind ∈ kinds) :
    named nameOf kinds (nameOf kind) = .ok kind := by
  unfold named
  split
  · rename_i kind' hfind
    have hname : nameOf kind' = nameOf kind := by simpa using List.find?_some hfind
    rw [hinj _ (List.mem_of_find?_eq_some hfind) _ h hname]
  · rename_i hfind
    exact absurd (List.find?_eq_none.mp hfind kind h) (by simp)

/-! ## What can be read -/

/-- Whatever is read of a value that is nested at most `depth` deep satisfies `p`. -/
def ReadsOnly (depth : Nat) (read : Json → Except Mismatch α) (p : α → Prop) : Prop :=
  ∀ json value, json.depth ≤ depth → read json = .ok value → p value

theorem ReadsOnly.asOption {depth : Nat} {read : Json → Except Mismatch α} {p : α → Prop}
    (h : ReadsOnly depth read p) : ReadsOnly depth (Json.asOption read) fun a => ∀ b ∈ a, p b := by
  rintro json a hdepth hread b ⟨rfl⟩
  unfold Json.asOption at hread
  split at hread
  · cases hread
  · rcases hjson : read json with what | value
    · rw [hjson] at hread
      cases hread
    · rw [hjson] at hread
      cases hread
      exact h json b hdepth hjson

theorem exists_of_mapM_ok {f : Json → Except Mismatch α} {items : List Json} {values : List α}
    (h : items.mapM f = .ok values) : ∀ value ∈ values, ∃ item ∈ items, f item = .ok value := by
  induction items generalizing values with
  | nil =>
    cases h
    simp
  | cons item items ih =>
    rw [List.mapM_cons] at h
    rcases hitem : f item with what | first
    · rw [hitem] at h
      cases h
    rcases hitems : items.mapM f with what | rest
    · rw [hitem, hitems] at h
      cases h
    rw [hitem, hitems] at h
    cases h
    rw [List.forall_mem_cons]
    constructor
    · exact ⟨item, List.mem_cons_self, hitem⟩
    · intro value hv
      obtain ⟨item', hmem, heq⟩ := ih hitems value hv
      exact ⟨item', List.mem_cons_of_mem _ hmem, heq⟩

theorem ReadsOnly.asList {depth : Nat} {read : Json → Except Mismatch α} {p : α → Prop}
    (h : 1 ≤ depth → ReadsOnly (depth - 1) read p) :
    ReadsOnly depth (Json.asList read) fun values => 1 ≤ depth ∧ ∀ value ∈ values, p value := by
  intro json values hdepth hread
  cases json with
  | list items =>
    rw [Json.depth] at hdepth
    constructor
    · omega
    · intro value hv
      obtain ⟨item, hmem, hitem⟩ := exists_of_mapM_ok hread value hv
      have hle := depth_le_of_mem_items hmem
      exact h (by omega) item value (by omega) hitem
  | _ => cases hread

theorem combine_eq_all {γ : Type} {f : α → β → γ} {a : Gathered α} {b : Gathered β} {value : γ}
    (h : a.combine f b = .all value) : ∃ x y, a = .all x ∧ b = .all y ∧ f x y = value := by
  cases a with
  | all x =>
    cases b with
    | all y =>
      cases h
      exact ⟨x, y, rfl, rfl, rfl⟩
    | wrong j what => cases h
    | lacking what => cases h
  | wrong i what =>
    cases b with
    | all y => cases h
    | wrong j what' =>
      simp only [Gathered.combine] at h
      split at h <;> cases h
    | lacking what' => cases h
  | lacking what => cases b <;> cases h

namespace Shape

theorem gather_of_ofMembers {s : Shape α} {members : List Member} {value : α}
    (h : s.ofMembers members = .ok value) :
    s.gather (firstNamed members) .missing = .all value := by
  unfold Shape.ofMembers at h
  cases hgather : (firstRepeat s.fields members).combine (fun _ value => value)
      (s.gather (firstNamed members) .missing) with
  | all value' =>
    rw [hgather] at h
    cases h
    obtain ⟨_, a, -, ha, rfl⟩ := combine_eq_all hgather
    exact ha
  | wrong index what =>
    rw [hgather] at h
    cases h
  | lacking what =>
    rw [hgather] at h
    cases h

/-- Whatever is gathered from fields that are nested at most `depth` deep satisfies `p`. -/
def Yields (depth : Nat) (shape : Shape α) (p : α → Prop) : Prop :=
  ∀ (find : Lookup) (lack : String → Mismatch) (value : α),
    (∀ name index json, find name = some (index, json) → json.depth ≤ depth) →
      shape.gather find lack = .all value → p value

namespace Yields

variable {depth : Nat}

theorem required (name : String) {read : Json → Except Mismatch α} {p : α → Prop}
    (h : ReadsOnly depth read p) : Yields depth (.required name read) p := by
  intro find lack value hfind hgather
  unfold Shape.required at hgather
  simp only at hgather
  split at hgather
  · cases hgather
  · split at hgather
    · cases hgather
      exact h _ _ (hfind _ _ _ ‹_›) ‹_›
    · cases hgather

theorem optional (name : String) {default : α} {read : Json → Except Mismatch α} {p : α → Prop}
    (hdefault : p default) (h : ReadsOnly depth read p) :
    Yields depth (.optional name default read) p := by
  intro find lack value hfind hgather
  unfold Shape.optional at hgather
  simp only at hgather
  split at hgather
  · cases hgather
    exact hdefault
  · split at hgather
    · cases hgather
      exact h _ _ (hfind _ _ _ ‹_›) ‹_›
    · cases hgather

theorem seq {s : Shape (α → β)} {t : Shape α} {p : (α → β) → Prop} {q : α → Prop}
    (h : Yields depth s p) (h' : Yields depth t q) :
    Yields depth (s <*> t) fun value => ∃ f a, p f ∧ q a ∧ f a = value := by
  intro find lack value hfind hgather
  obtain ⟨f, a, hf, ha, heq⟩ := combine_eq_all hgather
  exact ⟨f, a, h find lack f hfind hf, h' find lack a hfind ha, heq⟩

theorem map {s : Shape α} {p : α → Prop} (f : α → β) (h : Yields depth s p) :
    Yields depth (f <$> s) fun value => ∃ a, p a ∧ f a = value := by
  intro find lack value hfind hgather
  obtain ⟨_, a, hf, ha, heq⟩ := combine_eq_all hgather
  cases hf
  exact ⟨a, h find lack a hfind ha, heq⟩

theorem mono {s : Shape α} {p q : α → Prop} (h : Yields depth s p) (hpq : ∀ a, p a → q a) :
    Yields depth s q := by
  intro find lack value hfind hgather
  exact hpq value (h find lack value hfind hgather)

theorem ofMembers {s : Shape α} {p : α → Prop} (h : Yields depth s p) {members : List Member}
    {value : α} (hdepth : depthOfMembers members ≤ depth)
    (hread : s.ofMembers members = .ok value) : p value := by
  apply h _ _ value _ (gather_of_ofMembers hread)
  intro name index json hfind
  exact Nat.le_of_lt_succ (depth_lt_of_firstNamed hfind (Nat.lt_succ_of_le hdepth))

theorem ofItems (name : String) {s : Shape α} {p : α → Prop} (h : Yields depth s p)
    {items : List Json} {value : α} (hdepth : depthOfItems items ≤ depth)
    (hread : s.ofItems name items = .ok value) : p value := by
  unfold Shape.ofItems at hread
  cases hgather : s.gather (firstNamed (s.fields.zip items)) (tooShort name s.fields) with
  | all value' =>
    rw [hgather] at hread
    change (if _ then Except.ok value' else Except.error _) = _ at hread
    split at hread
    · cases hread
      apply h _ _ value _ hgather
      intro name index json hfind
      have hle := depthOfMembers_zip_le s.fields items
      exact Nat.le_of_lt_succ (depth_lt_of_firstNamed hfind (by omega))
    · cases hread
  | wrong index what =>
    rw [hgather] at hread
    cases hread
  | lacking what =>
    rw [hgather] at hread
    cases hread

theorem read (name : String) {s : Shape α} {p : α → Prop} (h : Yields (depth - 1) s p) :
    ReadsOnly depth (s.read name) fun value => 1 ≤ depth ∧ p value := by
  intro json value hdepth hread
  cases json with
  | object members =>
    rw [Json.depth] at hdepth
    constructor
    · omega
    · exact h.ofMembers (by omega) hread
  | list items =>
    rw [Json.depth] at hdepth
    constructor
    · omega
    · exact h.ofItems name (by omega) hread
  | _ => cases hread

end Yields

end Shape

end StyleScope.Json
