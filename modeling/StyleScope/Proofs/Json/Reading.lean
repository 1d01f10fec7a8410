import StyleScope.Proofs.Json.Letters
import StyleScope.Proofs.Json.Numbers

/-!
# Reading values

A value is read as what its spelling means, if it is not nested too deep and what follows cannot
belong to it.
-/

namespace StyleScope.Json

variable {α σ : Type}

/-! ## Blanks -/

theorem skipBlank_blanks (blanks : Blanks) (text : List Char) :
    skipBlank (blanks.text ++ text) = skipBlank text :=
  List.dropWhile_append_of_pos blanks.isBlank

theorem skipBlank_cons {c : Char} (h : isBlank c = false) (text : List Char) :
    skipBlank (c :: text) = c :: text :=
  List.dropWhile_cons_of_neg (by simp [h])

theorem stops_blanks (blanks : Blanks) {text : List Char} (h : Stops text) :
    Stops (blanks.text ++ text) := by
  obtain ⟨chars, hblank⟩ := blanks
  rcases chars with _ | ⟨c, chars⟩
  · exact h
  · have hc := hblank c List.mem_cons_self
    apply stops_cons
    simp only [isBlank, Bool.or_eq_true, decide_eq_true_eq] at hc
    rcases hc with ((rfl | rfl) | rfl) | rfl <;> decide

theorem nextItem_blanks (first : Bool) (blanks : Blanks) (text : List Char) :
    nextItem first (blanks.text ++ text) = nextItem first text := by
  unfold nextItem
  rw [skipBlank_blanks]

theorem nextName_blanks (first : Bool) (blanks : Blanks) (text : List Char) :
    nextName first (blanks.text ++ text) = nextName first text := by
  unfold nextName
  rw [skipBlank_blanks]

theorem items_blanks (item : Reader α) (first : Bool) (blanks : Blanks) (text : List Char) :
    items item first (blanks.text ++ text) = items item first text := by
  rw [items_eq, nextItem_blanks, ← items_eq]

theorem members_blanks (member : σ → String → Reader σ) (first : Bool) (state : σ)
    (blanks : Blanks) (text : List Char) :
    members member first state (blanks.text ++ text) = members member first state text := by
  rw [members_eq, nextName_blanks, ← members_eq]

theorem bracketed_blanks (onList onObject otherwise : List Char → Outcome α) (blanks : Blanks)
    (text : List Char) :
    bracketed onList onObject otherwise (blanks.text ++ text) =
      bracketed onList onObject otherwise text := by
  simp only [bracketed, skipBlank_blanks]

theorem value_run_blanks (levels : Nat) (blanks : Blanks) (text : List Char) :
    (value levels).run (blanks.text ++ text) = (value levels).run text := by
  cases levels with
  | zero => simp only [value, unbracketed, skipBlank_blanks]
  | succ levels => exact bracketed_blanks ..

/-! ## Separators -/

theorem closeList_bracket (rest : List Char) : closeList (']' :: rest) = ⟨none, rest⟩ := by
  unfold closeList
  rw [skipBlank_cons rfl]
  rfl

theorem closeList_blanks (blanks : Blanks) (text : List Char) :
    closeList (blanks.text ++ text) = closeList text := by
  unfold closeList
  rw [skipBlank_blanks]

theorem closeList_comma (text : List Char) :
    ∃ what rest, closeList (',' :: text) = ⟨some what, rest⟩ := by
  unfold closeList
  rw [skipBlank_cons rfl]
  simp only
  split <;> exact ⟨_, _, rfl⟩

theorem closeObject_brace (rest : List Char) : closeObject ('}' :: rest) = ⟨none, rest⟩ := by
  unfold closeObject
  rw [skipBlank_cons rfl]
  rfl

theorem nextItem_bracket (first : Bool) (rest : List Char) :
    nextItem first (']' :: rest) = .read false (']' :: rest) := by
  unfold nextItem
  rw [skipBlank_cons rfl]
  rfl

theorem nextName_brace (first : Bool) (rest : List Char) :
    nextName first ('}' :: rest) = .read none ('}' :: rest) := by
  unfold nextName
  rw [skipBlank_cons rfl]
  rfl

-- A bracket after the comma is a complaint, so what follows must not start with one.
theorem nextItem_comma (first : Bool) (before : Blanks) {c : Char} (hblank : isBlank c = false)
    (hbracket : c ≠ ']') (rest : List Char) :
    nextItem first (Spelling.comma first ++ (before.text ++ c :: rest)) =
      .read true (c :: rest) := by
  cases first with
  | true =>
    rw [Spelling.comma, if_pos rfl, List.nil_append, nextItem_blanks, nextItem,
      skipBlank_cons hblank]
    split
    · rename_i heq
      cases heq
    · rename_i heq
      exact absurd (List.cons.inj heq).1 hbracket
    · rename_i heq
      rw [if_pos rfl, heq]
  | false =>
    rw [Spelling.comma, if_neg (by decide), List.singleton_append, nextItem, skipBlank_cons rfl]
    split
    · rename_i heq
      cases heq
    · rename_i heq
      exact absurd (List.cons.inj heq).1 (by decide)
    · rename_i heq
      obtain ⟨rfl, rfl⟩ := List.cons.inj heq
      rw [if_neg (by decide), if_pos rfl, skipBlank_blanks, skipBlank_cons hblank]
      split
      · rename_i heq
        cases heq
      · rename_i heq
        exact absurd (List.cons.inj heq).1 hbracket
      · rfl

theorem nextName_comma (first : Bool) (before : Blanks) (rest : List Char) :
    nextName first (Spelling.comma first ++ (before.text ++ '"' :: rest)) =
      (quotedText.run rest).map some := by
  cases first with
  | true =>
    rw [Spelling.comma, if_pos rfl, List.nil_append, nextName_blanks, nextName,
      skipBlank_cons rfl]
    rfl
  | false =>
    rw [Spelling.comma, if_neg (by decide), List.singleton_append, nextName, skipBlank_cons rfl]
    split
    · rename_i heq
      cases heq
    · rename_i heq
      exact absurd (List.cons.inj heq).1 (by decide)
    · rename_i heq
      obtain ⟨rfl, rfl⟩ := List.cons.inj heq
      rw [if_neg (by decide), if_pos rfl, skipBlank_blanks, skipBlank_cons rfl]
      rfl

theorem colon_run (afterName : Blanks) (rest : List Char) :
    colon.run (afterName.text ++ ':' :: rest) = .read () rest := by
  change afterColon _ = _
  rw [afterColon, skipBlank_blanks, skipBlank_cons rfl]
  rfl

theorem colon_bind_run (next : Unit → Reader α) (afterName : Blanks) (rest : List Char) :
    (colon.bind next).run (afterName.text ++ ':' :: rest) = (next ()).run rest := by
  change (colon.run _).bind _ = _
  rw [colon_run]
  rfl

theorem member_run (inner : Reader Json) (earlier : List Member) (name : String)
    (afterName : Blanks) (text : List Char) :
    (member inner earlier name).run (afterName.text ++ ':' :: text) =
      (inner.run text).map fun value => (name, value) :: earlier :=
  colon_bind_run _ afterName text

theorem members_spelled (member : σ → String → Reader σ) (first : Bool) (state : σ)
    (before : Blanks) {letters : List Letter} {name : String}
    (hname : Letter.string? letters = some name) (afterName beforeValue : Blanks)
    (value : Spelling) (after : Blanks) (inner : List Spelling.Member) (rest : List Char) :
    members member first state
        (Spelling.textOfMembers first
          (⟨before, letters, afterName, beforeValue, value, after⟩ :: inner) ++ rest) =
      ((member state name).run (afterName.text ++ (':' :: (beforeValue.text ++ (value.text ++
        (after.text ++ (Spelling.textOfMembers false inner ++ rest))))))).bind
          fun state rest => members member false state rest := by
  simp only [Spelling.textOfMembers, Letter.quoted, List.append_assoc, List.cons_append,
    List.nil_append]
  have hletters := quotedText_letters letters (afterName.text ++ (':' :: (beforeValue.text ++
    (value.text ++ (after.text ++ (Spelling.textOfMembers false inner ++ rest))))))
  rw [hname] at hletters
  rw [members_eq, nextName_comma first before, Outcome.map_bind,
    show quotedText.run _ = .read name _ from hletters, Outcome.bind_read]

theorem members_spelled_gives {member : σ → String → Reader σ} {first : Bool} {state : σ}
    {before afterName beforeValue after : Blanks} {letters : List Letter} {value : Spelling}
    {inner : List Spelling.Member} {rest rest' : List Char} {f : String → Option σ}
    (h : ∀ name, Letter.string? letters = some name →
      (((member state name).run (afterName.text ++ (':' :: (beforeValue.text ++ (value.text ++
        (after.text ++ (Spelling.textOfMembers false inner ++ rest))))))).bind
          fun state rest => members member false state rest).Gives (f name) rest') :
    (members member first state
      (Spelling.textOfMembers first
        (⟨before, letters, afterName, beforeValue, value, after⟩ :: inner) ++ rest)).Gives
          ((Letter.string? letters).bind f) rest' := by
  simp only [Spelling.textOfMembers, Letter.quoted, List.append_assoc, List.cons_append,
    List.nil_append]
  rw [members_eq, nextName_comma first before, Outcome.map_bind]
  exact (quotedText_letters letters _).bind h

/-! ## Scalars -/

section

variable {c : Char} (hblank : isBlank c = false) (hlist : c ≠ '[') (hobject : c ≠ '{')

include hblank hlist hobject

theorem bracketed_scalar (onList onObject otherwise : List Char → Outcome α) (text : List Char) :
    bracketed onList onObject otherwise (c :: text) = otherwise (c :: text) := by
  unfold bracketed
  rw [skipBlank_cons hblank]
  split
  · rename_i heq
    exact absurd (List.cons.inj heq).1 hlist
  · rename_i heq
    exact absurd (List.cons.inj heq).1 hobject
  · rfl

theorem unbracketed_scalar (otherwise : List Char → Outcome α) (text : List Char) :
    unbracketed otherwise (c :: text) = otherwise (c :: text) := by
  unfold unbracketed
  rw [skipBlank_cons hblank]
  split
  · rename_i heq
    exact absurd (List.cons.inj heq).1 hlist
  · rename_i heq
    exact absurd (List.cons.inj heq).1 hobject
  · rfl

theorem value_run_scalar (levels : Nat) (text : List Char) :
    (value levels).run (c :: text) = scalar (c :: text) := by
  cases levels with
  | zero => exact unbracketed_scalar hblank hlist hobject ..
  | succ levels => exact bracketed_scalar hblank hlist hobject ..

end

theorem scalar_digit {c : Char} (h : c.isDigit) (text : List Char) :
    scalar (c :: text) = (numeral false (c :: text)).map .number := by
  unfold scalar
  split
  · rename_i heq
    cases heq
  all_goals
    rename_i heq
    obtain ⟨rfl, rfl⟩ := List.cons.inj heq
  · exact absurd h (by decide)
  · exact absurd h (by decide)
  · exact absurd h (by decide)
  · exact absurd h (by decide)
  · exact absurd h (by decide)
  · rw [if_pos h]

/-! ## What is not nested too deep -/

namespace Spelling

/-- What is spelled, if no more than `levels` brackets are open at once. -/
def within? (levels : Nat) (s : Spelling) : Option Json :=
  if s.depth ≤ levels then s.value? else Option.none

def itemsWithin? (levels : Nat) (items : List Item) : Option (List Json) :=
  if depthOfItems items ≤ levels then items? items else Option.none

def membersWithin? (levels : Nat) (members : List Member) : Option (List Json.Member) :=
  if depthOfMembers members ≤ levels then members? members else Option.none

theorem within?_of_depth_eq_zero {s : Spelling} (h : s.depth = 0) (levels : Nat) :
    s.within? levels = s.value? := by
  unfold within?
  rw [h, if_pos (Nat.zero_le levels)]

theorem within?_list_zero (inside : Blanks) (items : List Item) :
    (list inside items).within? 0 = Option.none := by
  rw [within?, depth, if_neg (Nat.not_succ_le_zero _)]

theorem within?_object_zero (inside : Blanks) (members : List Member) :
    (object inside members).within? 0 = Option.none := by
  rw [within?, depth, if_neg (Nat.not_succ_le_zero _)]

theorem within?_list_succ (inside : Blanks) (items : List Item) (levels : Nat) :
    (list inside items).within? (levels + 1) = (itemsWithin? levels items).map .list := by
  simp only [within?, itemsWithin?, depth, value?, Nat.add_le_add_iff_right]
  split <;> rfl

theorem within?_object_succ (inside : Blanks) (members : List Member) (levels : Nat) :
    (object inside members).within? (levels + 1) = (membersWithin? levels members).map .object := by
  simp only [within?, membersWithin?, depth, value?, Nat.add_le_add_iff_right]
  split <;> rfl

theorem itemsWithin?_nil (levels : Nat) : itemsWithin? levels [] = some [] := by
  rw [itemsWithin?, depthOfItems, if_pos (Nat.zero_le levels), items?]

theorem membersWithin?_nil (levels : Nat) : membersWithin? levels [] = some [] := by
  rw [membersWithin?, depthOfMembers, if_pos (Nat.zero_le levels), members?]

theorem itemsWithin?_cons (levels : Nat) (before : Blanks) (value : Spelling) (after : Blanks)
    (items : List Item) :
    itemsWithin? levels (⟨before, value, after⟩ :: items) =
      (value.within? levels).bind fun json => (itemsWithin? levels items).map (json :: ·) := by
  simp only [itemsWithin?, within?, depthOfItems, items?, Nat.max_le]
  by_cases hvalue : value.depth ≤ levels <;> by_cases hitems : depthOfItems items ≤ levels <;>
    simp [hvalue, hitems]

theorem membersWithin?_cons (levels : Nat) (before : Blanks) (name : List Letter)
    (afterName beforeValue : Blanks) (value : Spelling) (after : Blanks) (members : List Member) :
    membersWithin? levels (⟨before, name, afterName, beforeValue, value, after⟩ :: members) =
      (Letter.string? name).bind fun name => (value.within? levels).bind fun json =>
        (membersWithin? levels members).map ((name, json) :: ·) := by
  simp only [membersWithin?, within?, depthOfMembers, members?, Nat.max_le]
  by_cases hvalue : value.depth ≤ levels <;> by_cases hmembers : depthOfMembers members ≤ levels <;>
    simp [hvalue, hmembers]

end Spelling

/-! ## Where a value starts and ends -/

theorem ne_of_isDigit {c d : Char} (h : c.isDigit) (hd : d.isDigit = false) : c ≠ d := by
  rintro rfl
  exact absurd h (by simp [hd])

theorem isBlank_digit {c : Char} (h : c.isDigit) : isBlank c = false := by
  unfold isBlank
  simp only [Bool.or_eq_false_iff, decide_eq_false_iff_not]
  refine ⟨⟨⟨?_, ?_⟩, ?_⟩, ?_⟩ <;> exact ne_of_isDigit h rfl

theorem unsigned_cons (n : Numeral) : ∃ c text, n.unsigned = c :: text ∧ c.isDigit := by
  obtain ⟨c, chars, hwhole⟩ := List.exists_cons_of_ne_nil n.whole.ne_nil
  refine ⟨c, _, by rw [Numeral.unsigned, hwhole, List.cons_append], ?_⟩
  apply n.whole.isDigit
  simp [hwhole]

theorem text_cons (s : Spelling) :
    ∃ c text, s.text = c :: text ∧ isBlank c = false ∧ c ≠ ']' ∧
      (s.depth = 0 → c ≠ '[' ∧ c ≠ '{') := by
  cases s with
  | null => exact ⟨_, _, by rw [Spelling.text], rfl, by decide, by decide⟩
  | bool b => cases b <;> exact ⟨_, _, by rw [Spelling.text], rfl, by decide, by decide⟩
  | string letters =>
    exact ⟨_, _, by rw [Spelling.text, Letter.quoted]; rfl, rfl, by decide,
      fun _ => by decide⟩
  | list inside items => exact ⟨_, _, by rw [Spelling.text], rfl, by decide, nofun⟩
  | object inside members => exact ⟨_, _, by rw [Spelling.text], rfl, by decide, nofun⟩
  | number n =>
    rw [Spelling.text, Numeral.text]
    split
    · exact ⟨_, _, rfl, rfl, by decide, fun _ => by decide⟩
    · obtain ⟨c, text, heq, hdigit⟩ := unsigned_cons n
      refine ⟨c, text, heq, isBlank_digit hdigit, ne_of_isDigit hdigit rfl, ?_⟩
      intro _
      constructor <;> exact ne_of_isDigit hdigit rfl

theorem stops_items (items : List Spelling.Item) (rest : List Char) :
    Stops (Spelling.textOfItems false items ++ ']' :: rest) := by
  rcases items with _ | ⟨⟨before, value, after⟩, items⟩
  · exact stops_cons (by decide) rest
  · rw [Spelling.textOfItems]
    exact stops_cons (c := ',') (by decide) _

theorem stops_members (members : List Spelling.Member) (rest : List Char) :
    Stops (Spelling.textOfMembers false members ++ '}' :: rest) := by
  rcases members with _ | ⟨⟨before, name, afterName, beforeValue, value, after⟩, members⟩
  · exact stops_cons (by decide) rest
  · rw [Spelling.textOfMembers]
    exact stops_cons (c := ',') (by decide) _

theorem nextItem_spelled (first : Bool) (item : Spelling.Item) (items : List Spelling.Item)
    (rest : List Char) :
    nextItem first (Spelling.textOfItems first (item :: items) ++ rest) =
      .read true
        (item.value.text ++ (item.after.text ++ (Spelling.textOfItems false items ++ rest))) := by
  obtain ⟨before, s, after⟩ := item
  obtain ⟨c, text, heq, hblank, hbracket, -⟩ := text_cons s
  simp only [Spelling.textOfItems, List.append_assoc]
  rw [heq, List.cons_append, nextItem_comma first before hblank hbracket]

/-! ## Whole values -/

theorem scalar_numeral (n : Numeral) {rest : List Char} (hrest : Stops rest) :
    (scalar (n.text ++ rest)).Gives (n.value?.map .number) rest := by
  have hgives := numeral_gives n hrest
  rw [Numeral.text]
  cases hsign : n.negative with
  | true =>
    rw [hsign] at hgives
    exact hgives.map _
  | false =>
    rw [hsign] at hgives
    obtain ⟨c, text, heq, hdigit⟩ := unsigned_cons n
    rw [heq, List.cons_append] at hgives
    rw [if_neg (by decide), heq, List.cons_append, scalar_digit hdigit]
    exact hgives.map _

theorem scalar_quoted (letters : List Letter) (rest : List Char) :
    (scalar (Letter.quoted letters ++ rest)).Gives ((Letter.string? letters).map .string) rest := by
  rw [Letter.quoted, List.append_assoc, List.cons_append]
  exact (quotedText_letters letters rest).map _

theorem value_gives_scalar (levels : Nat) {s : Spelling} {rest : List Char} (hflat : s.depth = 0)
    (h : (scalar (s.text ++ rest)).Gives s.value? rest) :
    ((value levels).run (s.text ++ rest)).Gives (s.within? levels) rest := by
  obtain ⟨c, text, heq, hblank, -, hbracket⟩ := text_cons s
  rw [Spelling.within?_of_depth_eq_zero hflat]
  rw [heq, List.cons_append] at h ⊢
  rw [value_run_scalar hblank (hbracket hflat).1 (hbracket hflat).2]
  exact h

-- The induction follows the spelling and not the text, which its blanks make longer.
mutual

/-- A value is read as what it spells, and one that is nested too deep is not read. -/
theorem value_gives (levels : Nat) (s : Spelling) {rest : List Char} (hrest : Stops rest) :
    ((value levels).run (s.text ++ rest)).Gives (s.within? levels) rest := by
  match s with
  | .null => exact value_gives_scalar levels rfl rfl
  | .bool true => exact value_gives_scalar levels rfl rfl
  | .bool false => exact value_gives_scalar levels rfl rfl
  | .number n => exact value_gives_scalar levels rfl (scalar_numeral n hrest)
  | .string letters => exact value_gives_scalar levels rfl (scalar_quoted letters rest)
  | .list inside inner =>
    cases levels with
    | zero =>
      rw [Spelling.within?_list_zero]
      exact Outcome.gives_fault _ _ rest
    | succ levels =>
      have hitems := items_gives levels true inner rest
      rw [← items_blanks _ _ inside] at hitems
      simp only [Spelling.within?_list_succ, Spelling.text, List.cons_append, List.append_assoc]
      exact (hitems.map _).closedBy (closeList_bracket rest)
  | .object inside inner =>
    cases levels with
    | zero =>
      rw [Spelling.within?_object_zero]
      exact Outcome.gives_fault _ _ rest
    | succ levels =>
      have hmembers := members_gives levels true [] inner rest
      rw [← members_blanks _ _ _ inside] at hmembers
      simp only [Spelling.within?_object_succ, Spelling.text, List.cons_append, List.append_assoc]
      have hobject := (hmembers.map fun earlier => Json.object earlier.reverse).closedBy
        (closeObject_brace rest)
      simp only [Option.map_map, Function.comp_def, List.append_nil, List.reverse_reverse] at hobject
      exact hobject

theorem items_gives (levels : Nat) (first : Bool) (inner : List Spelling.Item)
    (rest : List Char) :
    (items (value levels) first (Spelling.textOfItems first inner ++ ']' :: rest)).Gives
      (Spelling.itemsWithin? levels inner) (']' :: rest) := by
  match inner with
  | [] =>
    rw [Spelling.textOfItems, List.nil_append, items_eq, nextItem_bracket,
      Spelling.itemsWithin?_nil]
    exact Outcome.gives_read [] _
  | ⟨before, s, after⟩ :: inner =>
    have hvalue := value_gives levels s (stops_blanks after (stops_items inner rest))
    have hitems := items_gives levels false inner rest
    rw [Spelling.itemsWithin?_cons, items_eq, nextItem_spelled, Outcome.bind_read, if_pos rfl]
    apply hvalue.bind
    intro json _
    rw [items_blanks]
    exact hitems.map _

theorem members_gives (levels : Nat) (first : Bool) (earlier : List Member)
    (inner : List Spelling.Member) (rest : List Char) :
    (members (member (value levels)) first earlier
      (Spelling.textOfMembers first inner ++ '}' :: rest)).Gives
      ((Spelling.membersWithin? levels inner).map (·.reverse ++ earlier)) ('}' :: rest) := by
  match inner with
  | [] =>
    rw [Spelling.textOfMembers, List.nil_append, members_eq, nextName_brace,
      Spelling.membersWithin?_nil]
    exact Outcome.gives_read _ _
  | ⟨before, name, afterName, beforeValue, s, after⟩ :: inner =>
    have hvalue := value_gives levels s (stops_blanks after (stops_members inner rest))
    rw [Spelling.membersWithin?_cons, Option.map_bind]
    apply members_spelled_gives
    intro name _
    simp only [member_run, value_run_blanks, Outcome.map_bind, Function.comp_apply,
      Option.map_bind]
    apply hvalue.bind
    intro json _
    -- The members are gathered last first, so the first one is what the others come on top of.
    have hmembers := members_gives levels false ((name, json) :: earlier) inner rest
    rw [members_blanks]
    simp only [Option.map_map, Function.comp_def, List.reverse_cons,
      List.append_assoc, List.singleton_append]
    exact hmembers

end

end StyleScope.Json
