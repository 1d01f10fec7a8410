import StyleScope.Proofs.Json.Documents
import StyleScope.Proofs.Mode.Asked
import StyleScope.Report

/-!
# Which texts are read as options

A text is read as options if it spells some that ask for lenience or for none. White space asks for
none, and no text of white space could be read as options.
-/

namespace StyleScope

open Json (Outcome Reader Spelling Letter Blanks Stops HasContent)

namespace Mode

/-! ## Truth values -/

theorem boolean_run_other {c : Char} (hblank : Json.isBlank c = false) (ht : c ≠ 't') (hf : c ≠ 'f')
    (text rest : List Char) : (Reader.boolean.run (c :: text)).Gives none rest := by
  simp only [Reader.boolean, Json.skipBlank_cons hblank]
  split
  · rename_i heq
    exact absurd (List.cons.inj heq).1 ht
  · rename_i heq
    exact absurd (List.cons.inj heq).1 hf
  · rw [Outcome.gives_iff]
    exact Json.notThis_read? ..

theorem boolean_gives (before : Blanks) (s : Spelling) (rest : List Char) :
    (Reader.boolean.run (before.text ++ (s.text ++ rest))).Gives s.bool? rest := by
  have hskip : Reader.boolean.run (before.text ++ (s.text ++ rest)) =
      Reader.boolean.run (s.text ++ rest) := by
    simp only [Reader.boolean, Json.skipBlank_blanks]
  rw [hskip]
  match s with
  | .bool true => rfl
  | .bool false => rfl
  | .null => exact boolean_run_other rfl (by decide) (by decide) _ rest
  | .string letters => exact boolean_run_other rfl (by decide) (by decide) _ rest
  | .list inside items => exact boolean_run_other rfl (by decide) (by decide) _ rest
  | .object inside members => exact boolean_run_other rfl (by decide) (by decide) _ rest
  | .number n =>
    obtain ⟨c, text, heq, hdigit⟩ := Json.unsigned_cons n
    rw [Spelling.text, Json.Numeral.text, heq]
    split
    · exact boolean_run_other rfl (by decide) (by decide) _ rest
    · exact boolean_run_other (Json.isBlank_digit hdigit) (Json.ne_of_isDigit hdigit rfl)
        (Json.ne_of_isDigit hdigit rfl) _ rest

/-! ## Objects -/

theorem member_gives (said : Option Bool) (name : String) (afterName beforeValue : Blanks)
    (s : Spelling) {rest : List Char} (hrest : Stops rest) :
    ((member said name).run (afterName.text ++ (':' :: (beforeValue.text ++
      (s.text ++ rest))))).Gives (saidBy? said name s) rest := by
  unfold member saidBy?
  split
  · split
    · exact Outcome.gives_misfit _ _ rest
    · rw [Json.colon_bind_run]
      exact (boolean_gives beforeValue s rest).map some
  · rw [Json.colon_bind_run]
    -- Whatever such a member holds, it is ignored.
    change ((Json.ignored.run _).map fun _ => said).Gives (some said) rest
    rw [Json.ignored_spelling beforeValue s hrest]
    exact Outcome.gives_read said rest

theorem members_give (first : Bool) (said : Option Bool) (inner : List Spelling.Member)
    (rest : List Char) :
    (Json.members member first said (Spelling.textOfMembers first inner ++ '}' :: rest)).Gives
      (sayAll? said inner) ('}' :: rest) := by
  induction inner generalizing first said with
  | nil =>
    rw [Spelling.textOfMembers, List.nil_append, Json.members_eq, Json.nextName_brace]
    exact Outcome.gives_read said _
  | cons first' inner ih =>
    obtain ⟨before, letters, afterName, beforeValue, s, after⟩ := first'
    rw [sayAll?]
    apply Json.members_spelled_gives
    intro name _
    have hmember := member_gives said name afterName beforeValue s
      (Json.stops_blanks after (Json.stops_members inner rest))
    apply hmember.bind
    intro said' _
    rw [Json.members_blanks]
    exact ih false said'

/-! ## Lists -/

theorem onList_item (inside : Blanks) (item : Spelling.Item) (items : List Spelling.Item)
    (rest : List Char) :
    (onList (inside.text ++ (Spelling.textOfItems true (item :: items) ++ rest))).Gives
      (item.value.bool?.map ofLenient)
      (item.after.text ++ (Spelling.textOfItems false items ++ rest)) := by
  unfold onList
  rw [Json.nextItem_blanks, Json.nextItem_spelled, Outcome.bind_read, if_pos rfl]
  exact (boolean_gives .none item.value _).map ofLenient

/-! ## Whole values -/

theorem reader_gives (levels : Nat) (before : Blanks) (s : Spelling) (rest : List Char) :
    ((reader (levels + 1)).run (before.text ++ (s.text ++ rest))).Gives
      ((lenient? s).map ofLenient) rest := by
  match s with
  | .null | .bool _ | .number _ | .string _ => exact Json.eitherBracket_scalar _ before rfl rest
  | .object inside inner =>
    have hmembers := members_give true none inner rest
    rw [← Json.members_blanks _ _ _ inside] at hmembers
    have hobject := (hmembers.map ofOption).closedBy (Json.closeObject_brace rest)
    change (Json.bracketed _ _ _ _).Gives _ rest
    rw [Json.bracketed_blanks]
    simp only [lenient?, Option.map_map, Spelling.text, List.cons_append, List.append_assoc]
    exact hobject
  | .list inside [] =>
    have hnone : (onList (inside.text ++ ']' :: rest)).Gives (some .strict) (']' :: rest) := by
      unfold onList
      rw [Json.nextItem_blanks, Json.nextItem_bracket]
      rfl
    change (Json.bracketed _ _ _ _).Gives _ rest
    rw [Json.bracketed_blanks]
    simp only [Spelling.text, Spelling.textOfItems, List.cons_append, List.append_assoc]
    exact hnone.closedBy (Json.closeList_bracket rest)
  | .list inside [item] =>
    have hitem := onList_item inside item [] (']' :: rest)
    have hclose : Json.closeList (item.after.text ++ ']' :: rest) = ⟨none, rest⟩ := by
      rw [Json.closeList_blanks, Json.closeList_bracket]
    change (Json.bracketed _ _ _ _).Gives _ rest
    rw [Json.bracketed_blanks]
    simp only [Spelling.text, List.cons_append, List.append_assoc]
    exact hitem.closedBy hclose
  | .list inside (item :: ⟨before', s, after⟩ :: items) =>
    have hitem := onList_item inside item (⟨before', s, after⟩ :: items) (']' :: rest)
    -- Behind the first item only a bracket may come.
    obtain ⟨what, left, hcomma⟩ := Json.closeList_comma (before'.text ++ (s.text ++ (after.text ++
      (Spelling.textOfItems false items ++ ']' :: rest))))
    have hclose : Json.closeList (item.after.text ++ (Spelling.textOfItems false
        (⟨before', s, after⟩ :: items) ++ ']' :: rest)) = ⟨some what, left⟩ := by
      rw [Json.closeList_blanks, ← hcomma]
      simp only [Spelling.textOfItems, Spelling.comma, Bool.false_eq_true, ↓reduceIte,
        List.cons_append, List.nil_append, List.append_assoc]
    change (Json.bracketed _ _ _ _).Gives _ rest
    rw [Json.bracketed_blanks]
    simp only [Spelling.text, List.cons_append, List.append_assoc]
    exact hitem.unclosed hclose rest

/-! ## Only what is spelled is read -/

theorem boolean_readsValues : Reader.boolean.ReadsValues := by
  intro text b rest h
  simp only [Reader.boolean] at h
  split at h
  · rename_i heq
    obtain ⟨json, hliteral, -⟩ := Outcome.eq_read_of_map h
    apply Json.hasValue_of_scalar
    rw [heq]
    exact hliteral
  · rename_i heq
    obtain ⟨json, hliteral, -⟩ := Outcome.eq_read_of_map h
    apply Json.hasValue_of_scalar
    rw [heq]
    exact hliteral
  · have hread := Json.notThis_read? (α := Bool) .boolean (Json.skipBlank text)
    rw [h] at hread
    cases hread

theorem hasContent_of_member {said said' : Option Bool} {name : String} {text rest : List Char}
    (h : (member said name).run text = .read said' rest) : HasContent text rest := by
  unfold member at h
  split at h
  · split at h
    · cases h
    · exact Json.hasContent_of_bind (boolean_readsValues.map some) h
  · exact Json.hasContent_of_bind (Json.ignored_readsValues.map _) h

theorem reader_readsValues : ∀ levels, (reader levels).ReadsValues := by
  apply Json.eitherBracket_readsValues
  · intro levels text mode left rest h hclose
    apply Json.hasValue_of_hasItems
    obtain ⟨_ | _, left₁, hnext, hmore⟩ := Outcome.eq_read_of_bind h
    · cases hmore
      obtain ⟨hitems, left₂, rfl⟩ := Json.hasItems_of_end hnext
      rw [Json.closeList_bracket] at hclose
      cases hclose
      exact hitems
    · obtain ⟨b, hboolean, -⟩ := Outcome.eq_read_of_map hmore
      obtain ⟨after, rfl⟩ := Json.exists_of_closeList hclose
      exact .cons hnext (boolean_readsValues hboolean) ⟨after, [], rfl⟩
  · intro levels text mode left rest h hclose
    obtain ⟨said, hmembers, -⟩ := Outcome.eq_read_of_map h
    exact Json.hasValue_of_members (fun _ _ _ _ _ => hasContent_of_member) hmembers hclose

/-! ## Whole texts -/

theorem read_document (before after : Blanks) (s : Spelling) :
    (read (Spelling.document before s after)).toOption = (lenient? s).map ofLenient := by
  apply Json.readDocument_toOption after
  rw [Spelling.document, String.toList_ofList]
  exact reader_gives 126 before s after.text

theorem ofLenient_inj {lenient lenient' : Bool} (h : ofLenient lenient = ofLenient lenient') :
    lenient = lenient' := by
  cases lenient <;> cases lenient' <;> simp [ofLenient] at h ⊢

theorem read_document_iff {before after : Blanks} {s : Spelling} {lenient : Bool} :
    read (Spelling.document before s after) = .ok (ofLenient lenient) ↔
      NamesPaired s ∧ Asks lenient s := by
  rw [← Json.toOption_eq_some_iff, read_document, Option.map_eq_some_iff, ← lenient?_eq_some_iff]
  constructor
  · rintro ⟨lenient', hlenient, heq⟩
    rw [← ofLenient_inj heq, hlenient]
  · exact fun h => ⟨lenient, h, rfl⟩

theorem read_eq_ok_iff {text : String} {lenient : Bool} :
    read text = .ok (ofLenient lenient) ↔
      ∃ before s after, text = Spelling.document before s after ∧ NamesPaired s ∧
        Asks lenient s := by
  constructor
  · intro h
    obtain ⟨before, s, after, rfl⟩ := Json.exists_document (reader_readsValues _) h
    exact ⟨before, s, after, rfl, read_document_iff.mp h⟩
  · rintro ⟨before, s, after, rfl, h⟩
    exact read_document_iff.mpr h

theorem isWhiteSpace_digit {c : Char} (h : c.isDigit) : Text.isWhiteSpace c = false := by
  have hbounds : 48 ≤ c.toNat ∧ c.toNat ≤ 57 := by
    simpa [Char.isDigit, UInt32.le_iff_toNat_le] using h
  simp only [Text.isWhiteSpace, Bool.or_eq_false_iff, Bool.and_eq_false_iff, decide_eq_false_iff_not]
  omega

theorem not_isBlank_document (before after : Blanks) (s : Spelling) :
    Text.isBlank (Spelling.document before s after) = false := by
  have hfirst : ∃ c text, s.text = c :: text ∧ Text.isWhiteSpace c = false := by
    match s with
    | .null => exact ⟨_, _, by rw [Spelling.text], rfl⟩
    | .bool true => exact ⟨_, _, by rw [Spelling.text], rfl⟩
    | .bool false => exact ⟨_, _, by rw [Spelling.text], rfl⟩
    | .string letters => exact ⟨_, _, by rw [Spelling.text, Letter.quoted]; rfl, rfl⟩
    | .list inside items => exact ⟨_, _, by rw [Spelling.text], rfl⟩
    | .object inside members => exact ⟨_, _, by rw [Spelling.text], rfl⟩
    | .number n =>
      obtain ⟨c, text, heq, hdigit⟩ := Json.unsigned_cons n
      rw [Spelling.text, Json.Numeral.text, heq]
      split
      · exact ⟨_, _, rfl, rfl⟩
      · exact ⟨_, _, rfl, isWhiteSpace_digit hdigit⟩
  obtain ⟨c, text, heq, hspace⟩ := hfirst
  rw [Text.isBlank, Spelling.document, String.toList_ofList, List.all_eq_false]
  refine ⟨c, ?_, by simp [hspace]⟩
  rw [heq]
  simp

/-! ## The default -/

theorem parse_of_isBlank {text : String} (h : Text.isBlank text = true) :
    parse text = .ok .strict ∧ ∃ complaint, read text = .error complaint := by
  constructor
  · unfold parse
    rw [if_pos h]
  · cases hread : read text with
    | error complaint => exact ⟨complaint, rfl⟩
    | ok mode =>
      obtain ⟨before, s, after, rfl⟩ := Json.exists_document (reader_readsValues _) hread
      rw [not_isBlank_document] at h
      cases h

theorem parse_of_not_isBlank {text : String} (h : Text.isBlank text = false) :
    parse text = (read text).mapError fun complaint =>
      .ofReading "P002" ("Failed to parse validation options JSON: " ++ complaint.message) := by
  unfold parse
  rw [if_neg (by simp [h])]

theorem parse_eq_ok_iff_read {text : String} (h : Text.isBlank text = false) {mode : Mode} :
    parse text = .ok mode ↔ read text = .ok mode := by
  rw [parse_of_not_isBlank h]
  cases read text <;> simp [Except.mapError]

theorem parse_document_iff (before after : Blanks) {s : Spelling} (h : s.Paired) (lenient : Bool) :
    parse (Spelling.document before s after) = .ok (ofLenient lenient) ↔ Asks lenient s := by
  rw [parse_eq_ok_iff_read (not_isBlank_document before after s), read_document_iff]
  exact and_iff_right (namesPaired_of_paired h)

theorem parse_eq_ofLenient_iff (text : String) (lenient : Bool) :
    parse text = .ok (ofLenient lenient) ↔
      Text.isBlank text = true ∧ lenient = false ∨
        ∃ before s after, text = Spelling.document before s after ∧ NamesPaired s ∧
          Asks lenient s := by
  cases hblank : Text.isBlank text with
  | true =>
    obtain ⟨hparse, complaint, hread⟩ := parse_of_isBlank hblank
    have hstrict : parse text = .ok (ofLenient lenient) ↔ lenient = false := by
      rw [hparse]
      cases lenient <;> simp [ofLenient]
    rw [← read_eq_ok_iff, hread, hstrict]
    simp
  | false =>
    rw [parse_eq_ok_iff_read hblank, read_eq_ok_iff]
    simp

theorem parse_ok_or_error (text : String) :
    (∃ mode, parse text = .ok mode) ∨
      ∃ message, parse text = .error ⟨"P002", .parse, .error, message, none, none⟩ := by
  cases hblank : Text.isBlank text with
  | true => exact .inl ⟨.strict, (parse_of_isBlank hblank).1⟩
  | false =>
    rw [parse_of_not_isBlank hblank]
    cases read text with
    | error complaint => exact .inr ⟨_, rfl⟩
    | ok mode => exact .inl ⟨mode, rfl⟩

/-- Options are accepted if they ask for a mode, and white space asks for the strict one; else there
is a diagnostic without a place. -/
theorem options_accepted (text : String) :
    (∀ lenient, parse text = .ok (ofLenient lenient) ↔
      Text.isBlank text = true ∧ lenient = false ∨
        ∃ before s after, text = Spelling.document before s after ∧ NamesPaired s ∧
          Asks lenient s) ∧
    (∀ before s after, text = Spelling.document before s after → s.Paired →
      ∀ lenient, parse text = .ok (ofLenient lenient) ↔ Asks lenient s) ∧
    ((∃ mode, parse text = .ok mode) ∨
      ∃ message, parse text = .error ⟨"P002", .parse, .error, message, none, none⟩) ∧
    if Text.isBlank text = true then ∃ complaint, read text = .error complaint
    else parse text = (read text).mapError fun complaint =>
      .ofReading "P002" ("Failed to parse validation options JSON: " ++ complaint.message) := by
  refine ⟨parse_eq_ofLenient_iff text, ?_, parse_ok_or_error text, ?_⟩
  · rintro before s after rfl hpaired lenient
    exact parse_document_iff before after hpaired lenient
  · split
    · exact (parse_of_isBlank ‹_›).2
    · exact parse_of_not_isBlank (Bool.eq_false_iff.mpr ‹_›)

end Mode

end StyleScope
