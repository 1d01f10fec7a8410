import StyleScope.Proofs.Json.Ignoring
import StyleScope.Proofs.Json.Scanned

/-!
# Only values that are spelled are read

Whatever is read as a value, or ignored, has a spelling. A value that is ignored is taken bracket by
bracket, so what the open brackets still ask of the text is kept apart from the value.
-/

namespace StyleScope.Json

variable {α σ : Type}

/-- The text up to the rest is a value with blanks before it. -/
def HasValue (text rest : List Char) : Prop :=
  ∃ (before : Blanks) (s : Spelling), text = before.text ++ (s.text ++ rest)

/-- The text up to the rest is what stands behind the name of a member. -/
def HasContent (text rest : List Char) : Prop :=
  ∃ (afterName : Blanks) (left : List Char), text = afterName.text ++ ':' :: left ∧
    HasValue left rest

/-- The text up to the rest is items of a list. -/
def HasItems (first : Bool) (text rest : List Char) : Prop :=
  ∃ (before : Blanks) (inner : List Spelling.Item),
    text = before.text ++ (Spelling.textOfItems first inner ++ rest)

/-- All that is read is values. -/
def Reader.ReadsValues (reader : Reader α) : Prop :=
  ∀ ⦃text value rest⦄, reader.run text = .read value rest → HasValue text rest

/-! ## Blanks -/

theorem exists_blanks (text : List Char) :
    ∃ before : Blanks, text = before.text ++ skipBlank text :=
  ⟨⟨text.takeWhile isBlank, fun _ hc => List.mem_takeWhile_imp hc⟩,
    List.takeWhile_append_dropWhile.symm⟩

theorem hasValue_blanks (blanks : Blanks) {text rest : List Char} (h : HasValue text rest) :
    HasValue (blanks.text ++ text) rest := by
  obtain ⟨before, s, rfl⟩ := h
  refine ⟨⟨blanks.text ++ before.text, ?_⟩, s, (List.append_assoc ..).symm⟩
  intro c hc
  rcases List.mem_append.mp hc with hc | hc
  · exact blanks.isBlank c hc
  · exact before.isBlank c hc

theorem hasValue_of_skipBlank {text rest : List Char} (h : HasValue (skipBlank text) rest) :
    HasValue text rest := by
  obtain ⟨before, htext⟩ := exists_blanks text
  rw [htext]
  exact hasValue_blanks before h

theorem hasValue_spelling (s : Spelling) (rest : List Char) : HasValue (s.text ++ rest) rest :=
  ⟨.none, s, rfl⟩

theorem hasValue_list (inside : Blanks) (items : List Spelling.Item) (rest : List Char) :
    HasValue ('[' :: (inside.text ++ (Spelling.textOfItems true items ++ ']' :: rest))) rest := by
  refine ⟨.none, .list inside items, ?_⟩
  simp [Spelling.text, Blanks.none]

theorem hasValue_of_hasItems {text rest : List Char} (h : HasItems true text (']' :: rest)) :
    HasValue ('[' :: text) rest := by
  obtain ⟨inside, items, rfl⟩ := h
  exact hasValue_list inside items rest

theorem hasValue_object (inside : Blanks) (members : List Spelling.Member) (rest : List Char) :
    HasValue ('{' :: (inside.text ++ (Spelling.textOfMembers true members ++ '}' :: rest)))
      rest := by
  refine ⟨.none, .object inside members, ?_⟩
  simp [Spelling.text, Blanks.none]

theorem hasContent_of_colon {text left rest : List Char} (h : colon.run text = .read () left)
    (hvalue : HasValue left rest) : HasContent text rest := by
  obtain ⟨afterName, htext⟩ := exists_blanks text
  change afterColon text = _ at h
  unfold afterColon at h
  split at h
  · cases h
  · rename_i heq
    cases h
    exact ⟨afterName, left, by rw [htext, heq], hvalue⟩
  · cases h

/-! ## Lists and objects -/

theorem exists_comma {first more : Bool} {text rest : List Char}
    (h : nextItem first text = .read more rest) :
    ∃ before between : Blanks,
      (more = false ∧ text = before.text ++ rest ∧ ∃ left, rest = ']' :: left) ∨
        (more = true ∧ text = before.text ++ (Spelling.comma first ++ (between.text ++ rest))) := by
  obtain ⟨before, htext⟩ := exists_blanks text
  unfold nextItem at h
  split at h
  · cases h
  · rename_i left heq
    cases h
    exact ⟨before, .none, .inl ⟨rfl, by rw [htext, heq], left, rfl⟩⟩
  · rename_i c tail _ heq
    rw [heq] at htext
    split at h
    · rename_i hfirst
      cases h
      refine ⟨before, .none, .inr ⟨rfl, ?_⟩⟩
      rw [htext, hfirst]
      rfl
    · rename_i hfirst
      split at h
      · rename_i hc
        obtain ⟨between, hbetween⟩ := exists_blanks tail
        split at h
        · cases h
        · cases h
        · cases h
          refine ⟨before, between, .inr ⟨rfl, ?_⟩⟩
          rw [htext, hc, Spelling.comma, if_neg hfirst, ← hbetween]
          rfl
      · cases h

theorem HasItems.cons {first : Bool} {text left left' rest : List Char}
    (hnext : nextItem first text = .read true left) (hvalue : HasValue left left')
    (h : HasItems false left' rest) : HasItems first text rest := by
  obtain ⟨after, inner, rfl⟩ := h
  obtain ⟨before, between, ⟨hmore, -⟩ | ⟨-, rfl⟩⟩ := exists_comma hnext
  · cases hmore
  · obtain ⟨between', s, hs⟩ := hasValue_blanks between hvalue
    refine ⟨before, ⟨between', s, after⟩ :: inner, ?_⟩
    rw [hs]
    simp [Spelling.textOfItems]

theorem hasItems_of_end {first : Bool} {text left : List Char}
    (hnext : nextItem first text = .read false left) :
    HasItems first text left ∧ ∃ rest, left = ']' :: rest := by
  obtain ⟨before, between, ⟨-, htext, hleft⟩ | ⟨hmore, -⟩⟩ := exists_comma hnext
  · exact ⟨⟨before, [], htext⟩, hleft⟩
  · cases hmore

theorem hasItems_of_items {item : Reader α} (hitem : item.ReadsValues) {first : Bool}
    {text left : List Char} {values : List α} (h : items item first text = .read values left) :
    HasItems first text left ∧ ∃ rest, left = ']' :: rest := by
  fun_induction items item first text generalizing values with
  | case1 first text left hnext =>
    cases h
    exact hasItems_of_end hnext
  | case2 first text left hnext value left' hrun ih =>
    obtain ⟨values, hvalues, -⟩ := Outcome.eq_read_of_map h
    obtain ⟨hitems, hrest⟩ := ih hvalues
    exact ⟨.cons hnext (hitem hrun) hitems, hrest⟩
  | case3 => cases h
  | case4 => cases h
  | case5 => cases h
  | case6 => cases h

theorem exists_of_closeList {text rest : List Char} (h : closeList text = ⟨none, rest⟩) :
    ∃ after : Blanks, text = after.text ++ ']' :: rest := by
  obtain ⟨after, htext⟩ := exists_blanks text
  unfold closeList at h
  split at h
  · cases h
  · rename_i heq
    cases h
    exact ⟨after, by rw [htext, heq]⟩
  · split at h <;> cases h
  · cases h

theorem exists_name {first : Bool} {name? : Option String} {text rest : List Char}
    (h : nextName first text = .read name? rest) :
    ∃ before between : Blanks,
      (name? = none ∧ text = before.text ++ rest ∧ ∃ left, rest = '}' :: left) ∨
        ∃ name letters, name? = some name ∧ text = before.text ++ (Spelling.comma first ++
          (between.text ++ (Letter.quoted letters ++ rest))) := by
  obtain ⟨before, htext⟩ := exists_blanks text
  unfold nextName at h
  split at h
  · cases h
  · rename_i left heq
    cases h
    exact ⟨before, .none, .inl ⟨rfl, by rw [htext, heq], left, rfl⟩⟩
  · rename_i c tail _ heq
    rw [heq] at htext
    split at h
    · rename_i hfirst
      split at h
      · rename_i hc
        obtain ⟨name, hname, rfl⟩ := Outcome.eq_read_of_map h
        obtain ⟨letters, hletters⟩ := exists_letters_of_quotedText hname
        refine ⟨before, .none, .inr ⟨name, letters, rfl, ?_⟩⟩
        rw [htext, hc, hletters, hfirst]
        rfl
      · cases h
    · rename_i hfirst
      split at h
      · rename_i hc
        obtain ⟨between, hbetween⟩ := exists_blanks tail
        split at h
        · cases h
        · rename_i heq'
          obtain ⟨name, hname, rfl⟩ := Outcome.eq_read_of_map h
          obtain ⟨letters, hletters⟩ := exists_letters_of_quotedText hname
          refine ⟨before, between, .inr ⟨name, letters, rfl, ?_⟩⟩
          rw [htext, hc, Spelling.comma, if_neg hfirst, hbetween, heq', hletters]
          rfl
        · cases h
        · cases h
      · cases h

theorem exists_spelledMembers {member : σ → String → Reader σ}
    (hmember : ∀ state name text state' rest,
      (member state name).run text = .read state' rest → HasContent text rest)
    {first : Bool} {state state' : σ} {text rest : List Char}
    (h : members member first state text = .read state' rest) :
    ∃ (before : Blanks) (inner : List Spelling.Member) (left : List Char),
      text = before.text ++ (Spelling.textOfMembers first inner ++ rest) ∧ rest = '}' :: left := by
  fun_induction members member first state text with
  | case1 first state text left hnext =>
    cases h
    obtain ⟨before, between, ⟨-, htext, left, rfl⟩ | ⟨name, letters, hname, -⟩⟩ := exists_name hnext
    · exact ⟨before, [], left, htext, rfl⟩
    · cases hname
  | case2 first state text name left hnext state'' left' hrun ih =>
    obtain ⟨after, inner, closed, hinner, hrest⟩ := ih h
    obtain ⟨before, between, ⟨hname, -⟩ | ⟨_, letters, -, htext⟩⟩ := exists_name hnext
    · cases hname
    · obtain ⟨afterName, content, hcontent, beforeValue, s, hs⟩ := hmember _ _ _ _ _ hrun
      refine ⟨before, ⟨between, letters, afterName, beforeValue, s, after⟩ :: inner, closed, ?_,
        hrest⟩
      rw [htext, hcontent, hs, hinner]
      simp [Spelling.textOfMembers]
  | case3 => cases h
  | case4 => cases h
  | case5 => cases h
  | case6 => cases h

theorem hasValue_of_items {item : Reader α} (hitem : item.ReadsValues) {text left rest : List Char}
    {values : List α} (h : items item true text = .read values left)
    (hclose : closeList left = ⟨none, rest⟩) : HasValue ('[' :: text) rest := by
  obtain ⟨hitems, left, rfl⟩ := hasItems_of_items hitem h
  rw [closeList_bracket] at hclose
  cases hclose
  exact hasValue_of_hasItems hitems

theorem hasValue_of_members {member : σ → String → Reader σ}
    (hmember : ∀ state name text state' rest,
      (member state name).run text = .read state' rest → HasContent text rest)
    {state state' : σ} {text left rest : List Char}
    (h : members member true state text = .read state' left)
    (hclose : closeObject left = ⟨none, rest⟩) : HasValue ('{' :: text) rest := by
  obtain ⟨inside, inner, closed, rfl, rfl⟩ := exists_spelledMembers hmember h
  rw [closeObject_brace] at hclose
  cases hclose
  exact hasValue_object inside inner rest

/-! ## Values -/

theorem hasContent_of_bind {inner : Unit → Reader α} (hinner : (inner ()).ReadsValues)
    {text rest : List Char} {value : α} (h : (colon.bind inner).run text = .read value rest) :
    HasContent text rest := by
  obtain ⟨_, left, hcolon, hvalue⟩ := Outcome.eq_read_of_bind h
  exact hasContent_of_colon hcolon (hinner hvalue)

theorem Reader.ReadsValues.map {β : Type} {reader : Reader α} (h : reader.ReadsValues)
    (f : α → β) : (reader.map f).ReadsValues := by
  intro text value rest hrun
  obtain ⟨a, ha, -⟩ := Outcome.eq_read_of_map hrun
  exact h ha

theorem hasValue_of_scalar {text rest : List Char} {json : Json}
    (h : scalar (skipBlank text) = .read json rest) : HasValue text rest := by
  obtain ⟨s, hs⟩ := exists_scalar h
  apply hasValue_of_skipBlank
  rw [hs]
  exact hasValue_spelling s rest

theorem value_readsValues (levels : Nat) : (value levels).ReadsValues := by
  induction levels with
  | zero =>
    intro text json rest h
    change unbracketed scalar text = _ at h
    unfold unbracketed at h
    split at h
    · cases h
    · cases h
    · exact hasValue_of_scalar h
  | succ levels ih =>
    intro text json rest h
    change bracketed _ _ _ text = _ at h
    unfold bracketed at h
    split at h
    · rename_i heq
      apply hasValue_of_skipBlank
      obtain ⟨left, hitems, hclose⟩ := Outcome.eq_read_of_closedBy h
      obtain ⟨values, hvalues, -⟩ := Outcome.eq_read_of_map hitems
      rw [heq]
      exact hasValue_of_items ih hvalues hclose
    · rename_i heq
      apply hasValue_of_skipBlank
      obtain ⟨left, hmembers, hclose⟩ := Outcome.eq_read_of_closedBy h
      obtain ⟨earlier, hearlier, -⟩ := Outcome.eq_read_of_map hmembers
      rw [heq]
      refine hasValue_of_members ?_ hearlier hclose
      intro state name text state' rest hmember
      exact hasContent_of_bind (ih.map _) hmember
    · exact hasValue_of_scalar h

/-! ## Values that are ignored -/

/-- The text up to the rest closes all brackets that are open, the innermost one first. -/
def Ends : List Bracket → List Char → List Char → Prop
  | [], text, rest => text = rest
  | .list :: outer, text, rest =>
    ∃ (after : Blanks) (items : List Spelling.Item) (left : List Char),
      text = after.text ++ (Spelling.textOfItems false items ++ ']' :: left) ∧ Ends outer left rest
  | .object :: outer, text, rest =>
    ∃ (after : Blanks) (members : List Spelling.Member) (left : List Char),
      text = after.text ++ (Spelling.textOfMembers false members ++ '}' :: left) ∧
        Ends outer left rest

/-- The text up to the rest is what is pending. -/
def Pending.Takes : Pending → List Char → List Char → Prop
  | .value opened, text, rest => ∃ left, HasValue text left ∧ Ends opened left rest
  | .behind opened, text, rest => Ends opened text rest

theorem exists_skippedName {text left : List Char} (h : skipName text = .read () left) :
    ∃ (letters : List Letter) (afterName : Blanks),
      text = Letter.quoted letters ++ (afterName.text ++ ':' :: left) := by
  unfold skipName at h
  split at h
  · cases h
  · obtain ⟨_, behind, hquoted, hcolon⟩ := Outcome.eq_read_of_bind h
    obtain ⟨letters, hletters⟩ := exists_letters_of_skipQuoted hquoted
    obtain ⟨afterName, hafter⟩ := exists_blanks behind
    unfold afterColon at hcolon
    split at hcolon
    · cases hcolon
    · rename_i heq
      cases hcolon
      exact ⟨letters, afterName, by rw [hletters, hafter, heq]⟩
    · cases hcolon
  · cases h

theorem takes_of_skipValue {opened : List Bracket} {text left rest : List Char} {pending : Pending}
    (h : skipValue opened text = .read pending left) (hpending : pending.Takes left rest) :
    (Pending.value opened).Takes text rest := by
  unfold skipValue at h
  split at h
  · rename_i tail heq
    obtain ⟨inside, htail⟩ := exists_blanks tail
    split at h
    · cases h
    · rename_i heq'
      cases h
      refine ⟨left, hasValue_of_skipBlank ?_, hpending⟩
      rw [heq, htail, heq']
      exact hasValue_list inside [] left
    · -- The list has a first item, which what is pending starts with.
      cases h
      obtain ⟨_, ⟨before, s, hs⟩, after, items, left, rfl, hends⟩ := hpending
      refine ⟨left, hasValue_of_skipBlank ?_, hends⟩
      have hlist := hasValue_list inside (⟨before, s, after⟩ :: items) left
      rw [heq, htail, hs]
      simpa [Spelling.textOfItems, Spelling.comma] using hlist
  · rename_i tail heq
    obtain ⟨inside, htail⟩ := exists_blanks tail
    split at h
    · rename_i heq'
      cases h
      refine ⟨left, hasValue_of_skipBlank ?_, hpending⟩
      rw [heq, htail, heq']
      exact hasValue_object inside [] left
    · obtain ⟨_, hname, rfl⟩ := Outcome.eq_read_of_map h
      obtain ⟨name, afterName, hname⟩ := exists_skippedName hname
      obtain ⟨_, ⟨beforeValue, s, hs⟩, after, members, left, rfl, hends⟩ := hpending
      refine ⟨left, hasValue_of_skipBlank ?_, hends⟩
      have hobject := hasValue_object inside
        (⟨.none, name, afterName, beforeValue, s, after⟩ :: members) left
      rw [heq, htail, hname, hs]
      simpa [Spelling.textOfMembers, Spelling.comma, Blanks.none] using hobject
  · obtain ⟨_, hscalar, rfl⟩ := Outcome.eq_read_of_map h
    obtain ⟨s, hs⟩ := exists_skipped hscalar
    refine ⟨left, hasValue_of_skipBlank ?_, hpending⟩
    rw [hs]
    exact hasValue_spelling s left

theorem takes_of_skipBehind {innermost : Bracket} {outer : List Bracket}
    {text left rest : List Char} {pending : Pending}
    (h : skipBehind innermost outer text = .read pending left)
    (hpending : pending.Takes left rest) :
    (Pending.behind (innermost :: outer)).Takes text rest := by
  obtain ⟨after, htext⟩ := exists_blanks text
  unfold skipBehind at h
  split at h
  · cases h
  · rename_i heq
    cases h
    exact ⟨after, [], left, by rw [htext, heq]; rfl, hpending⟩
  · rename_i heq
    cases h
    obtain ⟨_, ⟨before, s, rfl⟩, after', items, left, rfl, hends⟩ := hpending
    refine ⟨after, ⟨before, s, after'⟩ :: items, left, ?_, hends⟩
    rw [htext, heq]
    simp [Spelling.textOfItems, Spelling.comma]
  · cases h
  · cases h
  · rename_i heq
    cases h
    exact ⟨after, [], left, by rw [htext, heq]; rfl, hpending⟩
  · rename_i tail heq
    obtain ⟨_, hskipped, rfl⟩ := Outcome.eq_read_of_map h
    obtain ⟨before, htail⟩ := exists_blanks tail
    obtain ⟨name, afterName, hname⟩ := exists_skippedName hskipped
    obtain ⟨_, ⟨beforeValue, s, rfl⟩, after', members, left, rfl, hends⟩ := hpending
    refine ⟨after, ⟨before, name, afterName, beforeValue, s, after'⟩ :: members, left, ?_, hends⟩
    rw [htext, heq, htail, hname]
    simp [Spelling.textOfMembers, Spelling.comma]
  · cases h

theorem takes_of_skip {pending : Pending} {text rest : List Char}
    (h : skip pending text = .read () rest) : pending.Takes text rest := by
  fun_induction skip pending text with
  | case1 pending text hend =>
    cases h
    rcases pending with opened | (_ | ⟨innermost, outer⟩)
    · cases hend
    · rfl
    · cases hend
  | case2 pending text step hstep pending' left hrun ih =>
    rcases pending with opened | (_ | ⟨innermost, outer⟩)
    · cases hstep
      exact takes_of_skipValue hrun (ih h)
    · cases hstep
    · cases hstep
      exact takes_of_skipBehind hrun (ih h)
  | case3 => cases h
  | case4 => cases h

theorem ignored_readsValues : ignored.ReadsValues := by
  intro text _ rest h
  change (skipValue [] text).bind skip = _ at h
  rw [← skip_value] at h
  obtain ⟨left, hvalue, rfl⟩ := takes_of_skip h
  exact hvalue

end StyleScope.Json
