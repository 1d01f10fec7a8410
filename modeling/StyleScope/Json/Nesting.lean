import StyleScope.Json.Shape

/-!
# Reading no deeper than a value is nested

A record is read by what reads its fields, and these are nested less deep than the record. So two
ways of reading that agree on all that is nested less deep than `depth` give the same records up to
there.
-/

namespace StyleScope.Json

variable {α β : Type}

/-! ## Depth -/

theorem depth_le_of_mem_items {item : Json} {items : List Json} (h : item ∈ items) :
    item.depth ≤ depthOfItems items := by
  induction items with
  | nil => simp at h
  | cons first rest ih =>
    rw [depthOfItems]
    rcases List.mem_cons.mp h with rfl | h
    · exact Nat.le_max_left ..
    · exact Nat.le_trans (ih h) (Nat.le_max_right ..)

theorem depth_le_of_mem_members {member : Member} {members : List Member} (h : member ∈ members) :
    member.2.depth ≤ depthOfMembers members := by
  induction members with
  | nil => simp at h
  | cons first rest ih =>
    rw [depthOfMembers]
    rcases List.mem_cons.mp h with rfl | h
    · exact Nat.le_max_left ..
    · exact Nat.le_trans (ih h) (Nat.le_max_right ..)

theorem depthOfMembers_le {members : List Member} {depth : Nat}
    (h : ∀ member ∈ members, member.2.depth ≤ depth) : depthOfMembers members ≤ depth := by
  induction members with
  | nil => exact Nat.zero_le _
  | cons first rest ih =>
    rw [depthOfMembers]
    exact Nat.max_le.mpr ⟨h first (by simp), ih fun member hm => h member (by simp [hm])⟩

theorem depthOfMembers_filter_le (p : Member → Bool) (members : List Member) :
    depthOfMembers (members.filter p) ≤ depthOfMembers members :=
  depthOfMembers_le fun _ h => depth_le_of_mem_members (List.mem_filter.mp h).1

/-! ## Agreement on values -/

/-- Both read alike what is nested less than `depth` deep. -/
def Agree (depth : Nat) (f g : Json → Except Mismatch α) : Prop :=
  ∀ json : Json, json.depth < depth → f json = g json

theorem Agree.asOption {depth : Nat} {f g : Json → Except Mismatch α} (h : Agree depth f g) :
    Agree depth (Json.asOption f) (Json.asOption g) := by
  intro json hlt
  have := h json hlt
  cases json <;> simp_all [Json.asOption]

theorem mapM_congr {f g : Json → Except Mismatch α} {items : List Json}
    (h : ∀ item ∈ items, f item = g item) : items.mapM f = items.mapM g := by
  induction items with
  | nil => rfl
  | cons first rest ih =>
    rw [List.mapM_cons, List.mapM_cons, h first (by simp), ih fun item hi => h item (by simp [hi])]

theorem Agree.asList {depth : Nat} {f g : Json → Except Mismatch α} (h : Agree depth f g) :
    Agree (depth + 1) (Json.asList f) (Json.asList g) := by
  intro json hlt
  cases json with
  | list items =>
    rw [Json.depth] at hlt
    refine mapM_congr fun item hi => h item ?_
    have := depth_le_of_mem_items hi
    omega
  | _ => rfl

theorem Agree.mono {depth depth' : Nat} {f g : Json → Except Mismatch α} (h : Agree depth f g)
    (hle : depth' ≤ depth) : Agree depth' f g :=
  fun json hlt => h json (Nat.lt_of_lt_of_le hlt hle)

/-! ## Agreement on records -/

namespace Shape

/-- Both gather alike from fields that are nested less than `depth` deep. -/
def Agree (depth : Nat) (s t : Shape α) : Prop :=
  s.fields = t.fields ∧
    ∀ (find : Lookup) (lack : String → Mismatch),
      (∀ name index json, find name = some (index, json) → json.depth < depth) →
      s.gather find lack = t.gather find lack

theorem Agree.refl (depth : Nat) (s : Shape α) : Agree depth s s := ⟨rfl, fun _ _ _ => rfl⟩

theorem Agree.required {depth : Nat} (name : String) {f g : Json → Except Mismatch α}
    (h : Json.Agree depth f g) : Agree depth (.required name f) (.required name g) := by
  refine ⟨rfl, fun find lack hfind => ?_⟩
  simp only [Shape.required]
  split
  · rfl
  · rename_i index json heq
    rw [h json (hfind _ _ _ heq)]

theorem Agree.optional {depth : Nat} (name : String) (default : α)
    {f g : Json → Except Mismatch α} (h : Json.Agree depth f g) :
    Agree depth (.optional name default f) (.optional name default g) := by
  refine ⟨rfl, fun find lack hfind => ?_⟩
  simp only [Shape.optional]
  split
  · rfl
  · rename_i index json heq
    rw [h json (hfind _ _ _ heq)]

theorem Agree.seq {depth : Nat} {s t : Shape (α → β)} {s' t' : Shape α} (h : Agree depth s t)
    (h' : Agree depth s' t') : Agree depth (s <*> s') (t <*> t') := by
  refine ⟨?_, fun find lack hfind => ?_⟩
  · change s.fields ++ s'.fields = t.fields ++ t'.fields
    rw [h.1, h'.1]
  · change (s.gather find lack).combine _ (s'.gather find lack) =
      (t.gather find lack).combine _ (t'.gather find lack)
    rw [h.2 find lack hfind, h'.2 find lack hfind]

theorem Agree.map {depth : Nat} (f : α → β) {s t : Shape α} (h : Agree depth s t) :
    Agree depth (f <$> s) (f <$> t) :=
  (Agree.refl depth (pure f)).seq h

theorem depth_lt_of_firstNamed {members : List Member} {name : String} {index depth : Nat}
    {json : Json} (h : firstNamed members name = some (index, json))
    (hlt : depthOfMembers members < depth) : json.depth < depth := by
  obtain ⟨⟨member, i⟩, hfind, heq⟩ := Option.map_eq_some_iff.mp h
  have hmem := List.mem_of_find?_eq_some hfind
  have hle : member.2.depth ≤ depthOfMembers members :=
    depth_le_of_mem_members (List.fst_mem_of_mem_zipIdx hmem)
  simp only [Prod.mk.injEq] at heq
  rw [← heq.2]
  omega

theorem Agree.ofMembers {depth : Nat} {s t : Shape α} (h : Agree depth s t) {members : List Member}
    (hlt : depthOfMembers members < depth) : s.ofMembers members = t.ofMembers members := by
  unfold Shape.ofMembers
  rw [h.1, h.2 _ _ fun name index json hfind => depth_lt_of_firstNamed hfind hlt]

theorem depthOfMembers_zip_le (names : List String) (items : List Json) :
    depthOfMembers (names.zip items) ≤ depthOfItems items :=
  depthOfMembers_le fun _ h => depth_le_of_mem_items (List.of_mem_zip h).2

theorem Agree.ofItems {depth : Nat} (name : String) {s t : Shape α} (h : Agree depth s t)
    {items : List Json} (hlt : depthOfItems items < depth) :
    s.ofItems name items = t.ofItems name items := by
  have hle := depthOfMembers_zip_le t.fields items
  unfold Shape.ofItems
  rw [h.1, h.2 _ _ fun name index json hfind => depth_lt_of_firstNamed hfind (by omega)]

theorem Agree.read {depth : Nat} (name : String) {s t : Shape α} (h : Agree depth s t) :
    Json.Agree (depth + 1) (s.read name) (t.read name) := by
  intro json hlt
  cases json with
  | object members =>
    rw [Json.depth] at hlt
    exact h.ofMembers (by omega)
  | list items =>
    rw [Json.depth] at hlt
    exact h.ofItems name (by omega)
  | _ => rfl

end Shape

end StyleScope.Json
