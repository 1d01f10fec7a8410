import StyleScope.Proofs.Json.Spelling

/-!
# What spelled options ask for

Options are an object with perhaps the member `lenient`, or a list of at most one truth value. What
they ask for can also be computed member by member, as they are read.
-/

namespace StyleScope

open Json (Spelling Letter)

/-! ## Spelled options -/

namespace Json.Spelling

def bool? : Spelling → Option Bool
  | bool b => some b
  | _ => none

theorem bool?_eq_some_iff {s : Spelling} {b : Bool} : s.bool? = some b ↔ s = .bool b := by
  cases s <;> simp [bool?]

mutual

/-- All strings in a value, the names of members among them. -/
def strings : Spelling → List (List Letter)
  | string letters => [letters]
  | list _ items => stringsOfItems items
  | object _ members => stringsOfMembers members
  | _ => []

def stringsOfItems : List Item → List (List Letter)
  | [] => []
  | ⟨_, value, _⟩ :: items => value.strings ++ stringsOfItems items

def stringsOfMembers : List Member → List (List Letter)
  | [] => []
  | ⟨_, name, _, _, value, _⟩ :: members => name :: (value.strings ++ stringsOfMembers members)

end

/-- In the strings of a value each surrogate is one of a pair. -/
def Paired (s : Spelling) : Prop := ∀ letters ∈ s.strings, (Letter.string? letters).isSome

theorem name_mem_strings {member : Member} {members : List Member} (h : member ∈ members) :
    member.name ∈ stringsOfMembers members := by
  induction members with
  | nil => cases h
  | cons first members ih =>
    obtain ⟨before, name, afterName, beforeValue, value, after⟩ := first
    rw [stringsOfMembers]
    rcases List.mem_cons.mp h with rfl | h
    · exact List.mem_cons_self
    · exact List.mem_cons_of_mem _ (List.mem_append_right _ (ih h))

end Json.Spelling

namespace Mode

/-- What the members `lenient` of some options hold. -/
def lenientValues (members : List Spelling.Member) : List Spelling :=
  (members.filter fun member => Letter.string? member.name = some "lenient").map (·.value)

/-- Options that ask for lenience or for none: an object in which `lenient` is given at most once,
as a truth value, or a list of at most a truth value. -/
def Asks (lenient : Bool) : Spelling → Prop
  | .object _ members =>
    lenientValues members = [] ∧ lenient = false ∨ lenientValues members = [.bool lenient]
  | .list _ [] => lenient = false
  | .list _ [item] => item.value = .bool lenient
  | _ => False

/-- No surrogate stands alone in the name of a member. -/
def NamesPaired : Spelling → Prop
  | .object _ members => ∀ member ∈ members, (Letter.string? member.name).isSome
  | _ => True

theorem namesPaired_of_paired {s : Spelling} (h : s.Paired) : NamesPaired s := by
  cases s with
  | object inside members =>
    intro member hmember
    exact h _ (Spelling.name_mem_strings hmember)
  | _ => trivial

/-! ## What members say -/

/-- What has been said about `lenient` after one more member, unless that is a fault. -/
def saidBy? (said : Option Bool) (name : String) (value : Spelling) : Option (Option Bool) :=
  if name = "lenient" then
    if said.isSome then none else value.bool?.map some
  else some said

def sayAll? (said : Option Bool) : List Spelling.Member → Option (Option Bool)
  | [] => some said
  | member :: members =>
    (Letter.string? member.name).bind fun name =>
      (saidBy? said name member.value).bind fun said => sayAll? said members

/-- What options ask for, if they are not at fault. -/
def lenient? : Spelling → Option Bool
  | .object _ members => (sayAll? none members).map (·.getD false)
  | .list _ [] => some false
  | .list _ [item] => item.value.bool?
  | _ => none

theorem lenientValues_cons {member : Spelling.Member}
    (h : Letter.string? member.name = some "lenient") (members : List Spelling.Member) :
    lenientValues (member :: members) = member.value :: lenientValues members := by
  unfold lenientValues
  rw [List.filter_cons_of_pos (by simp [h]), List.map_cons]

theorem lenientValues_cons_other {member : Spelling.Member} {name : String}
    (h : Letter.string? member.name = some name) (hother : name ≠ "lenient")
    (members : List Spelling.Member) :
    lenientValues (member :: members) = lenientValues members := by
  unfold lenientValues
  rw [List.filter_cons_of_neg (by simp [h, hother])]

theorem sayAll?_some_iff {b : Bool} {said : Option Bool} {members : List Spelling.Member} :
    sayAll? (some b) members = some said ↔
      (∀ member ∈ members, (Letter.string? member.name).isSome) ∧
        lenientValues members = [] ∧ said = some b := by
  induction members with
  | nil =>
    rw [sayAll?, Option.some.injEq, eq_comm]
    simp [lenientValues]
  | cons member members ih =>
    rw [sayAll?, List.forall_mem_cons]
    cases hname : Letter.string? member.name with
    | none => simp
    | some name =>
      rw [Option.bind_some, saidBy?]
      by_cases hlenient : name = "lenient"
      · rw [lenientValues_cons (hlenient ▸ hname), if_pos hlenient]
        simp
      · rw [lenientValues_cons_other hname hlenient, if_neg hlenient, Option.bind_some, ih]
        simp

theorem sayAll?_none_iff {said : Option Bool} {members : List Spelling.Member} :
    sayAll? none members = some said ↔
      (∀ member ∈ members, (Letter.string? member.name).isSome) ∧
        (lenientValues members = [] ∧ said = none ∨
          ∃ b, lenientValues members = [.bool b] ∧ said = some b) := by
  induction members with
  | nil =>
    rw [sayAll?, Option.some.injEq, eq_comm]
    simp [lenientValues]
  | cons member members ih =>
    rw [sayAll?, List.forall_mem_cons]
    cases hname : Letter.string? member.name with
    | none => simp
    | some name =>
      rw [Option.bind_some, saidBy?]
      by_cases hlenient : name = "lenient"
      · rw [lenientValues_cons (hlenient ▸ hname), if_pos hlenient, if_neg (by simp)]
        cases hbool : member.value.bool? with
        | none =>
          have hne : ∀ b, member.value ≠ .bool b := by
            intro b heq
            rw [heq] at hbool
            cases hbool
          simp [hne]
        | some b =>
          rw [Option.map_some, Option.bind_some, sayAll?_some_iff,
            Spelling.bool?_eq_some_iff.mp hbool]
          cases b <;> simp [and_left_comm]
      · rw [lenientValues_cons_other hname hlenient, if_neg hlenient, Option.bind_some, ih]
        simp

/-- What is computed of some options is what they ask for. -/
theorem lenient?_eq_some_iff {s : Spelling} {lenient : Bool} :
    lenient? s = some lenient ↔ NamesPaired s ∧ Asks lenient s := by
  match s with
  | .object inside members =>
    simp only [lenient?, Option.map_eq_some_iff, sayAll?_none_iff, NamesPaired, Asks]
    constructor
    · rintro ⟨said, ⟨hnames, ⟨hnone, rfl⟩ | ⟨b, hone, rfl⟩⟩, rfl⟩
      · exact ⟨hnames, .inl ⟨hnone, rfl⟩⟩
      · exact ⟨hnames, .inr hone⟩
    · rintro ⟨hnames, ⟨hnone, rfl⟩ | hone⟩
      · exact ⟨none, ⟨hnames, .inl ⟨hnone, rfl⟩⟩, rfl⟩
      · exact ⟨some lenient, ⟨hnames, .inr ⟨lenient, hone, rfl⟩⟩, rfl⟩
  | .list inside [] => simp only [lenient?, NamesPaired, Asks, Option.some.injEq, true_and, eq_comm]
  | .list inside [item] => simp [lenient?, NamesPaired, Asks, Spelling.bool?_eq_some_iff]
  | .list inside (_ :: _ :: _) => simp [lenient?, Asks]
  | .null | .bool _ | .number _ | .string _ => simp [lenient?, Asks]

end Mode

end StyleScope
