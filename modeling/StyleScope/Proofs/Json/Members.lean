import StyleScope.Proofs.Json.Records

/-!
# Fields among the members of an object

A field is there if just one member has its name. A record is read from an object if and only if
each field is there or may be missing, and what is there can be read.
-/

namespace StyleScope.Json

variable {α β : Type}

/-- What the members with a name hold. -/
def valuesOf (members : List Member) (name : String) : List Json :=
  (members.filter (·.1 = name)).map Prod.snd

/-- A field that must be there. -/
def Required (members : List Member) (name : String) (p : Json → Prop) : Prop :=
  ∃ json, valuesOf members name = [json] ∧ p json

/-- A field that may be missing, where `absent` is what is known without it. -/
def Optional (members : List Member) (name : String) (absent : Prop) (p : Json → Prop) : Prop :=
  (valuesOf members name = [] ∧ absent) ∨ Required members name p

section

variable {members : List Member} {name : String} {p q : Json → Prop} {absent : Prop}

theorem mem_of_valuesOf {json : Json} (h : valuesOf members name = [json]) :
    (name, json) ∈ members := by
  have hmem : json ∈ valuesOf members name := by simp [h]
  obtain ⟨⟨name', json'⟩, hfilter, rfl⟩ := List.mem_map.mp hmem
  obtain ⟨hmember, hname⟩ := List.mem_filter.mp hfilter
  simp only [decide_eq_true_eq] at hname
  subst hname
  exact hmember

theorem Required.congr (h : ∀ json, (name, json) ∈ members → (p json ↔ q json)) :
    Required members name p ↔ Required members name q := by
  unfold Required
  constructor
  · rintro ⟨json, hvalues, hp⟩
    exact ⟨json, hvalues, (h json (mem_of_valuesOf hvalues)).mp hp⟩
  · rintro ⟨json, hvalues, hq⟩
    exact ⟨json, hvalues, (h json (mem_of_valuesOf hvalues)).mpr hq⟩

theorem Optional.congr (h : ∀ json, (name, json) ∈ members → (p json ↔ q json)) :
    Optional members name absent p ↔ Optional members name absent q :=
  or_congr_right (Required.congr h)

end

theorem valuesOf_cons (member : Member) (members : List Member) (name : String) :
    valuesOf (member :: members) name =
      if member.1 = name then member.2 :: valuesOf members name else valuesOf members name := by
  unfold valuesOf
  by_cases hname : member.1 = name <;> simp [hname]

theorem valuesOf_filter {members : List Member} {name other : String} (h : name ≠ other) :
    valuesOf (members.filter (·.1 ≠ other)) name = valuesOf members name := by
  unfold valuesOf
  rw [List.filter_filter]
  congr 2
  funext member
  by_cases hname : member.1 = name <;> simp [hname, h]

theorem length_valuesOf (members : List Member) (name : String) :
    (valuesOf members name).length = (members.map Prod.fst).count name := by
  unfold valuesOf
  rw [List.length_map, List.count, List.countP_map, List.countP_eq_length_filter]
  congr 2

namespace Shape

/-! ## What is found -/

theorem firstNamed_snd (members : List Member) (name : String) :
    (firstNamed members name).map Prod.snd = (valuesOf members name).head? := by
  unfold valuesOf
  rw [List.head?_map, List.head?_filter]
  conv_rhs => rw [← List.zipIdx_map_fst 0 members, List.find?_map]
  unfold firstNamed
  rw [Option.map_map, Option.map_map]
  rfl

theorem firstNamed_of_nil {members : List Member} {name : String}
    (h : valuesOf members name = []) : firstNamed members name = none := by
  have hsnd := firstNamed_snd members name
  rw [h] at hsnd
  simpa using hsnd

theorem firstNamed_of_singleton {members : List Member} {name : String} {json : Json}
    (h : valuesOf members name = [json]) :
    ∃ index, firstNamed members name = some (index, json) := by
  have hsnd := firstNamed_snd members name
  rw [h] at hsnd
  obtain ⟨⟨index, json'⟩, hfind, heq⟩ := Option.map_eq_some_iff.mp hsnd
  cases heq
  exact ⟨index, hfind⟩

theorem firstRepeat_eq_all_iff (fields : List String) (members : List Member) :
    firstRepeat fields members = .all () ↔
      ∀ name ∈ fields, (valuesOf members name).length ≤ 1 := by
  have hnone : firstRepeat fields members = .all () ↔ ∀ member index,
      members[index]? = some member → member.1 ∈ fields →
        member.1 ∉ (members.take index).map Prod.fst := by
    unfold firstRepeat
    split
    · rename_i member index hfind
      have hmem := List.mem_zipIdx_iff_getElem?.mp (List.mem_of_find?_eq_some hfind)
      have hrepeats := List.find?_some hfind
      simp only [decide_eq_true_eq] at hrepeats
      refine iff_of_false nofun fun h => h member index hmem hrepeats.1 hrepeats.2
    · rename_i hfind
      refine iff_of_true rfl fun member index hget hfield hearlier => ?_
      have hmem : (member, index) ∈ members.zipIdx := List.mem_zipIdx_iff_getElem?.mpr hget
      exact List.find?_eq_none.mp hfind _ hmem (by simpa using ⟨hfield, by simpa using hearlier⟩)
  rw [hnone]
  constructor
  · intro h name hname
    rw [length_valuesOf, ← not_lt]
    intro htwice
    obtain ⟨⟨i, hi⟩, ⟨j, hj⟩, hlt, hfirst, hsecond⟩ :=
      List.duplicate_iff_exists_distinct_get.mp (List.duplicate_iff_two_le_count.mpr htwice)
    rw [List.get_eq_getElem, List.getElem_map] at hfirst hsecond
    rw [List.length_map] at hi hj
    refine h members[j] j (List.getElem?_eq_getElem hj) (hsecond ▸ hname) ?_
    rw [← hsecond, hfirst, List.mem_map]
    exact ⟨members[i], List.mem_take_iff_getElem.mpr ⟨i, by simpa using ⟨hlt, hi⟩, rfl⟩, rfl⟩
  · intro h member index hget hfield hearlier
    have hone := h _ hfield
    rw [length_valuesOf, ← List.take_append_drop index members, List.map_append,
      List.count_append] at hone
    have hlater : member.1 ∈ (members.drop index).map Prod.fst :=
      List.mem_map_of_mem (List.mem_of_getElem? (i := 0) (by rw [List.getElem?_drop]; exact hget))
    have hfirst := List.count_pos_iff.mpr hearlier
    have hsecond := List.count_pos_iff.mpr hlater
    omega

/-! ## What a shape allows -/

/-- An object with these members is read as `value`: no field is repeated, and `value` is what is
gathered. -/
def Allows (shape : Shape α) (members : List Member) (value : α) : Prop :=
  (∀ name ∈ shape.fields, (valuesOf members name).length ≤ 1) ∧
    shape.gather (firstNamed members) .missing = .all value

theorem ofMembers_eq_ok_iff {shape : Shape α} {members : List Member} {value : α} :
    shape.ofMembers members = .ok value ↔ shape.Allows members value := by
  unfold Allows
  rw [← firstRepeat_eq_all_iff]
  constructor
  · intro h
    have hgather := gather_of_ofMembers h
    refine ⟨?_, hgather⟩
    unfold ofMembers at h
    rw [hgather] at h
    cases hrepeat : firstRepeat shape.fields members with
    | all => rfl
    | wrong index what =>
      rw [hrepeat] at h
      cases h
    | lacking what =>
      rw [hrepeat] at h
      cases h
  · rintro ⟨hrepeat, hgather⟩
    unfold ofMembers
    rw [hrepeat, hgather]
    rfl

variable {members : List Member} {name : String} {default value : α}
  {read : Json → Except Mismatch α}

theorem allows_required :
    (required name read).Allows members value ↔
      Required members name fun json => read json = .ok value := by
  unfold Allows Required required
  simp only [List.mem_singleton, forall_eq]
  rcases hvalues : valuesOf members name with _ | ⟨json, _ | ⟨second, rest⟩⟩
  · rw [firstNamed_of_nil hvalues]
    simp
  · obtain ⟨index, hfind⟩ := firstNamed_of_singleton hvalues
    rw [hfind]
    cases hread : read json <;> simp [hread]
  · simp

theorem allows_optional :
    (optional name default read).Allows members value ↔
      Optional members name (value = default) fun json => read json = .ok value := by
  unfold Allows Optional Required optional
  simp only [List.mem_singleton, forall_eq]
  rcases hvalues : valuesOf members name with _ | ⟨json, _ | ⟨second, rest⟩⟩
  · rw [firstNamed_of_nil hvalues]
    simp [eq_comm]
  · obtain ⟨index, hfind⟩ := firstNamed_of_singleton hvalues
    rw [hfind]
    cases hread : read json <;> simp [hread]
  · simp

theorem allows_seq {s : Shape (α → β)} {t : Shape α} {value : β} :
    (s <*> t).Allows members value ↔
      ∃ f a, s.Allows members f ∧ t.Allows members a ∧ f a = value := by
  constructor
  · rintro ⟨hfields, hgather⟩
    obtain ⟨f, a, hf, ha, heq⟩ := combine_eq_all hgather
    refine ⟨f, a, ⟨?_, hf⟩, ⟨?_, ha⟩, heq⟩
    · exact fun name hmem => hfields name (List.mem_append_left _ hmem)
    · exact fun name hmem => hfields name (List.mem_append_right _ hmem)
  · rintro ⟨f, a, ⟨hfields, hf⟩, ⟨hfields', ha⟩, rfl⟩
    constructor
    · intro name hmem
      rcases List.mem_append.mp hmem with hmem | hmem
      · exact hfields name hmem
      · exact hfields' name hmem
    · change (s.gather _ _).combine _ (t.gather _ _) = _
      rw [hf, ha]
      rfl

theorem allows_map {s : Shape α} {f : α → β} {value : β} :
    (f <$> s).Allows members value ↔ ∃ a, s.Allows members a ∧ f a = value := by
  have hseq : (f <$> s).Allows members value ↔ ((pure f : Shape (α → β)) <*> s).Allows members value :=
    Iff.rfl
  rw [hseq, allows_seq]
  constructor
  · rintro ⟨g, a, ⟨-, hg⟩, ha, heq⟩
    cases hg
    exact ⟨a, ha, heq⟩
  · rintro ⟨a, ha, heq⟩
    exact ⟨f, a, ⟨nofun, rfl⟩, ha, heq⟩

/-! ## Records of several fields -/

section

variable {γ δ ε : Type} {s : Shape α} {t : Shape β} {u : Shape γ} {v : Shape δ}

theorem allows_two {f : α → β → γ} (hf : ∀ a b a' b', f a b = f a' b' → a = a' ∧ b = b') {a : α}
    {b : β} :
    (f <$> s <*> t).Allows members (f a b) ↔ s.Allows members a ∧ t.Allows members b := by
  rw [allows_seq]
  simp only [allows_map]
  constructor
  · rintro ⟨_, b', ⟨a', ha, rfl⟩, hb, heq⟩
    obtain ⟨rfl, rfl⟩ := hf _ _ _ _ heq
    exact ⟨ha, hb⟩
  · rintro ⟨ha, hb⟩
    exact ⟨f a, b, ⟨a, ha, rfl⟩, hb, rfl⟩

theorem allows_three {f : α → β → γ → δ}
    (hf : ∀ a b c a' b' c', f a b c = f a' b' c' → a = a' ∧ b = b' ∧ c = c') {a : α} {b : β}
    {c : γ} :
    (f <$> s <*> t <*> u).Allows members (f a b c) ↔
      s.Allows members a ∧ t.Allows members b ∧ u.Allows members c := by
  rw [allows_seq]
  simp only [allows_seq, allows_map]
  constructor
  · rintro ⟨_, c', ⟨_, b', ⟨a', ha, rfl⟩, hb, rfl⟩, hc, heq⟩
    obtain ⟨rfl, rfl, rfl⟩ := hf _ _ _ _ _ _ heq
    exact ⟨ha, hb, hc⟩
  · rintro ⟨ha, hb, hc⟩
    exact ⟨f a b, c, ⟨f a, b, ⟨a, ha, rfl⟩, hb, rfl⟩, hc, rfl⟩

theorem allows_four {f : α → β → γ → δ → ε}
    (hf : ∀ a b c d a' b' c' d', f a b c d = f a' b' c' d' → a = a' ∧ b = b' ∧ c = c' ∧ d = d')
    {a : α} {b : β} {c : γ} {d : δ} :
    (f <$> s <*> t <*> u <*> v).Allows members (f a b c d) ↔
      s.Allows members a ∧ t.Allows members b ∧ u.Allows members c ∧ v.Allows members d := by
  rw [allows_seq]
  simp only [allows_seq, allows_map]
  constructor
  · rintro ⟨_, d', ⟨_, c', ⟨_, b', ⟨a', ha, rfl⟩, hb, rfl⟩, hc, rfl⟩, hd, heq⟩
    obtain ⟨rfl, rfl, rfl, rfl⟩ := hf _ _ _ _ _ _ _ _ heq
    exact ⟨ha, hb, hc, hd⟩
  · rintro ⟨ha, hb, hc, hd⟩
    exact ⟨f a b c, d, ⟨f a b, c, ⟨f a, b, ⟨a, ha, rfl⟩, hb, rfl⟩, hc, rfl⟩, hd, rfl⟩

end

end Shape

end StyleScope.Json
