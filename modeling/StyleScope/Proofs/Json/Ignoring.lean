import StyleScope.Json.Ignored
import StyleScope.Proofs.Json.Reading

/-!
# Values that nobody asks for are read to their end

Whatever a spelling means, and even if it means nothing, ignoring it takes just its text: no number
is too large, no surrogate stands alone, and no bracket is nested too deep.
-/

namespace StyleScope.Json

/-! ## Numbers -/

theorem skipExponent_digits (negative? : Option Bool) (digits : Digits) {rest : List Char}
    (hrest : NoDigit rest) :
    skipExponent (Exponent.signText negative? ++ digits.chars ++ rest) = .read () rest := by
  unfold skipExponent
  rw [exponentSign_signText]
  obtain ⟨chars, hne, hdigit⟩ := digits
  obtain ⟨c, chars, rfl⟩ := List.exists_cons_of_ne_nil hne
  obtain ⟨hc, hchars⟩ := List.forall_mem_cons.mp hdigit
  simp only [List.cons_append, if_pos hc, dropWhile_digits hchars hrest]

theorem skipExponent_text (power : Exponent) {rest : List Char} (hrest : NoDigit rest) :
    ∃ text, (power.text ++ rest = 'e' :: text ∨ power.text ++ rest = 'E' :: text) ∧
      skipExponent text = .read () rest := by
  refine ⟨_, ?_, skipExponent_digits power.negative? power.digits hrest⟩
  unfold Exponent.text
  rcases power.isMark with h | h <;> simp [h]

theorem skipExponent?_text (power : Option Exponent) {rest : List Char} (hrest : Stops rest) :
    skipExponent? (Exponent.optionalText power ++ rest) = .read () rest := by
  rcases power with _ | power
  · change skipExponent? rest = _
    unfold skipExponent?
    split
    · exact absurd rfl (hrest _ _ rfl).2.2.1
    · exact absurd rfl (hrest _ _ rfl).2.2.2
    · rfl
  · obtain ⟨text, htext, hskip⟩ := skipExponent_text power hrest.noDigit
    change skipExponent? (power.text ++ rest) = _
    rcases htext with h | h <;> rw [h] <;> exact hskip

theorem skipAfterWhole_text (fraction : Option Digits) (power : Option Exponent)
    {rest : List Char} (hrest : Stops rest) :
    skipAfterWhole (Numeral.fractionText fraction ++ (Exponent.optionalText power ++ rest)) =
      .read () rest := by
  have hpower := skipExponent?_text power hrest
  rcases fraction with _ | ⟨chars, hne, hdigit⟩
  · change skipAfterWhole (Exponent.optionalText power ++ rest) = _
    unfold skipAfterWhole
    split
    · rename_i text heq
      -- A point is neither in the power of ten nor what may follow a number.
      rcases power with _ | power
      · exact absurd rfl (hrest _ _ heq).2.1
      · obtain ⟨text', htext, -⟩ := skipExponent_text power hrest.noDigit
        change power.text ++ rest = _ at heq
        rw [heq] at htext
        simp at htext
    · exact hpower
  · have hnext := noDigit_optionalText power hrest.noDigit
    have hstarts : startsWithDigit (chars ++ (Exponent.optionalText power ++ rest)) = true := by
      obtain ⟨c, chars, rfl⟩ := List.exists_cons_of_ne_nil hne
      exact hdigit c List.mem_cons_self
    change skipAfterWhole ('.' :: (chars ++ (Exponent.optionalText power ++ rest))) = _
    rw [skipAfterWhole, if_pos hstarts, dropWhile_digits hdigit hnext]
    exact hpower

theorem skipNumeral_unsigned (n : Numeral) {rest : List Char} (hrest : Stops rest) :
    skipNumeral (n.unsigned ++ rest) = .read () rest := by
  have hafter := skipAfterWhole_text n.fraction n.exponent hrest
  have hnext := noDigit_fractionText n.fraction (noDigit_optionalText n.exponent hrest.noDigit)
  obtain ⟨c, chars, hwhole⟩ := List.exists_cons_of_ne_nil n.whole.ne_nil
  have hdigits := n.whole.isDigit
  have hzeros := n.noZeros
  rw [hwhole] at hdigits hzeros
  obtain ⟨hc, hchars⟩ := List.forall_mem_cons.mp hdigits
  simp only [Numeral.unsigned, hwhole, List.append_assoc, List.cons_append]
  unfold skipNumeral
  split
  · rename_i heq
    cases heq
  · rename_i tail heq
    obtain ⟨rfl, rfl⟩ := List.cons.inj heq
    have hnil : chars = [] := by simpa using hzeros
    subst hnil
    rw [List.nil_append, startsWithDigit_eq_false hnext]
    exact hafter
  · rename_i c' tail _ heq
    obtain ⟨rfl, rfl⟩ := List.cons.inj heq
    rw [if_pos hc, dropWhile_digits hchars hnext]
    exact hafter

/-! ## Strings -/

theorem skipEscape_short {c meant : Char} (h : shortEscape? c = some meant) (rest : List Char) :
    skipEscape.run (c :: rest) = .read () rest := by
  have hu := ne_of_shortEscape h
  change escapeWith _ _ (c :: rest) = _
  rw [escapeWith, h]
  exact hu

theorem skipEscape_numbered {a b c d : Char} {n : Nat} (h : hexValue? a b c d = some n)
    (rest : List Char) : skipEscape.run ('u' :: a :: b :: c :: d :: rest) = .read () rest := by
  simp only [skipEscape, escapeWith, hexWord_eq h, Outcome.map_read]

theorem charsWith_skipped (control : List Char → Outcome (List Unit)) (letters : List Letter)
    (rest : List Char) :
    ∃ skipped, charsWith skipEscape (fun _ => ()) control
      (letters.flatMap Letter.text ++ '"' :: rest) = .read skipped rest := by
  induction letters with
  | nil => exact ⟨[], charsWith_quote _ rest⟩
  | cons letter letters ih =>
    obtain ⟨skipped, hskipped⟩ := ih
    refine ⟨() :: skipped, ?_⟩
    rw [List.flatMap_cons, List.append_assoc]
    cases letter with
    | plain c h =>
      rw [Letter.text, List.singleton_append, charsWith_plain _ h, hskipped, Outcome.map_read]
    | short c meant h =>
      simp only [Letter.text, List.cons_append, List.nil_append]
      rw [charsWith_escape, skipEscape_short h, Outcome.bind_read, hskipped, Outcome.map_read]
    | numbered a b c d n h =>
      simp only [Letter.text, List.cons_append, List.nil_append]
      rw [charsWith_escape, skipEscape_numbered h, Outcome.bind_read, hskipped, Outcome.map_read]

theorem skipQuoted_letters (letters : List Letter) (rest : List Char) :
    skipQuoted.run (letters.flatMap Letter.text ++ '"' :: rest) = .read () rest := by
  obtain ⟨skipped, hskipped⟩ := charsWith_skipped Malformed.controlCharacter.here letters rest
  change Outcome.map _ _ = _
  rw [hskipped, Outcome.map_read]

theorem skipName_text (name : List Letter) (afterName : Blanks) (rest : List Char) :
    skipName (Letter.quoted name ++ (afterName.text ++ ':' :: rest)) = .read () rest := by
  rw [Letter.quoted, List.append_assoc, List.cons_append, List.singleton_append, skipName,
    skipQuoted_letters, Outcome.bind_read]
  exact colon_run afterName rest

/-! ## Scalars -/

theorem skipScalar_digit {c : Char} (h : c.isDigit) (text : List Char) :
    skipScalar (c :: text) = skipNumeral (c :: text) := by
  unfold skipScalar
  split
  · rename_i heq
    obtain ⟨rfl, -⟩ := List.cons.inj heq
    exact absurd h (by decide)
  · rename_i heq
    obtain ⟨rfl, -⟩ := List.cons.inj heq
    exact absurd h (by decide)
  · rename_i heq
    obtain ⟨rfl, rfl⟩ := List.cons.inj heq
    rw [if_pos h]
  · rename_i heq
    cases heq

theorem skipScalar_text {s : Spelling} (hflat : s.depth = 0) {rest : List Char}
    (hrest : Stops rest) : skipScalar (s.text ++ rest) = .read () rest := by
  cases s with
  | null => rfl
  | bool b => cases b <;> rfl
  | string letters =>
    rw [Spelling.text, Letter.quoted, List.append_assoc, List.cons_append, List.singleton_append]
    exact skipQuoted_letters letters rest
  | number n =>
    have hskip := skipNumeral_unsigned n hrest
    rw [Spelling.text, Numeral.text]
    split
    · exact hskip
    · obtain ⟨c, text, heq, hdigit⟩ := unsigned_cons n
      rw [heq, List.cons_append] at hskip ⊢
      rw [skipScalar_digit hdigit]
      exact hskip
  | list inside items => simp [Spelling.depth] at hflat
  | object inside members => simp [Spelling.depth] at hflat

/-! ## Any value -/

theorem skip_end {pending : Pending} (h : pending.step? = none) (text : List Char) :
    skip pending text = .read () text := by
  rw [skip]
  split
  · rfl
  · rename_i step hstep
    rw [h] at hstep
    cases hstep

theorem skip_step {pending : Pending} {step : Reader Pending} (h : pending.step? = some step)
    (text : List Char) : skip pending text = (step.run text).bind skip := by
  rw [skip]
  split
  · rename_i hend
    rw [h] at hend
    cases hend
  · rename_i hstep
    rw [h] at hstep
    cases hstep
    split <;> rename_i hrun <;> rw [hrun] <;> rfl

theorem skip_value (opened : List Bracket) (text : List Char) :
    skip (.value opened) text = (skipValue opened text).bind skip := by
  have hstep : (Pending.value opened).step? = some ⟨skipValue opened, below_skipValue opened⟩ := rfl
  exact skip_step hstep text

theorem skip_behind (innermost : Bracket) (outer : List Bracket) (text : List Char) :
    skip (.behind (innermost :: outer)) text = (skipBehind innermost outer text).bind skip := by
  have hstep : (Pending.behind (innermost :: outer)).step? =
      some ⟨skipBehind innermost outer, below_skipBehind innermost outer⟩ := rfl
  exact skip_step hstep text

theorem skip_value_blanks (opened : List Bracket) (blanks : Blanks) (text : List Char) :
    skip (.value opened) (blanks.text ++ text) = skip (.value opened) text := by
  rw [skip_value, skip_value]
  unfold skipValue
  rw [skipBlank_blanks]

theorem skip_behind_blanks (innermost : Bracket) (outer : List Bracket) (blanks : Blanks)
    (text : List Char) :
    skip (.behind (innermost :: outer)) (blanks.text ++ text) =
      skip (.behind (innermost :: outer)) text := by
  rw [skip_behind, skip_behind]
  unfold skipBehind
  rw [skipBlank_blanks]

theorem skip_value_scalar (opened : List Bracket) {s : Spelling} (hflat : s.depth = 0)
    {rest : List Char} (hrest : Stops rest) :
    skip (.value opened) (s.text ++ rest) = skip (.behind opened) rest := by
  obtain ⟨c, text, heq, hblank, -, hbracket⟩ := text_cons s
  obtain ⟨hlist, hobject⟩ := hbracket hflat
  have hscalar := skipScalar_text hflat hrest
  rw [heq, List.cons_append] at hscalar ⊢
  rw [skip_value]
  unfold skipValue
  rw [skipBlank_cons hblank]
  split
  · rename_i heq
    exact absurd (List.cons.inj heq).1 hlist
  · rename_i heq
    exact absurd (List.cons.inj heq).1 hobject
  · rw [hscalar, Outcome.map_read, Outcome.bind_read]

theorem skipValue_list (opened : List Bracket) (text : List Char) :
    skipValue opened ('[' :: text) =
      match skipBlank text with
      | [] => Malformed.endInList.onNext []
      | ']' :: rest => .read (.behind opened) rest
      | rest => .read (.value (.list :: opened)) rest := by
  unfold skipValue
  rw [skipBlank_cons rfl]
  rfl

theorem skipValue_object (opened : List Bracket) (text : List Char) :
    skipValue opened ('{' :: text) =
      match skipBlank text with
      | '}' :: rest => .read (.behind opened) rest
      | rest => (skipName rest).map fun _ => .value (.object :: opened) := by
  unfold skipValue
  rw [skipBlank_cons rfl]
  rfl

theorem skip_empty_list (opened : List Bracket) (inside : Blanks) (rest : List Char) :
    skip (.value opened) ('[' :: (inside.text ++ ']' :: rest)) = skip (.behind opened) rest := by
  rw [skip_value, skipValue_list, skipBlank_blanks, skipBlank_cons rfl]
  rfl

theorem skip_empty_object (opened : List Bracket) (inside : Blanks) (rest : List Char) :
    skip (.value opened) ('{' :: (inside.text ++ '}' :: rest)) = skip (.behind opened) rest := by
  rw [skip_value, skipValue_object, skipBlank_blanks, skipBlank_cons rfl]
  rfl

theorem skip_first_item (opened : List Bracket) (inside before : Blanks) (s : Spelling)
    (rest : List Char) :
    skip (.value opened) ('[' :: (inside.text ++ (before.text ++ (s.text ++ rest)))) =
      skip (.value (.list :: opened)) (s.text ++ rest) := by
  obtain ⟨c, text, heq, hblank, hbracket, -⟩ := text_cons s
  rw [skip_value, skipValue_list, skipBlank_blanks, skipBlank_blanks, heq, List.cons_append,
    skipBlank_cons hblank]
  split
  · rename_i heq
    cases heq
  · rename_i heq
    exact absurd (List.cons.inj heq).1 hbracket
  · rfl

theorem skip_next_item (opened : List Bracket) (rest : List Char) :
    skip (.behind (.list :: opened)) (',' :: rest) = skip (.value (.list :: opened)) rest := by
  rw [skip_behind]
  unfold skipBehind
  rw [skipBlank_cons rfl]
  rfl

theorem skip_list_end (opened : List Bracket) (rest : List Char) :
    skip (.behind (.list :: opened)) (']' :: rest) = skip (.behind opened) rest := by
  rw [skip_behind]
  unfold skipBehind
  rw [skipBlank_cons rfl]
  rfl

theorem skip_first_member (opened : List Bracket) (inside before : Blanks) (name : List Letter)
    (afterName : Blanks) (rest : List Char) :
    skip (.value opened) ('{' :: (inside.text ++ (before.text ++ (Letter.quoted name ++
      (afterName.text ++ ':' :: rest))))) = skip (.value (.object :: opened)) rest := by
  have hname := skipName_text name afterName rest
  rw [skip_value, skipValue_object, skipBlank_blanks, skipBlank_blanks]
  rw [Letter.quoted, List.append_assoc, List.cons_append] at hname ⊢
  rw [skipBlank_cons rfl]
  change ((skipName _).map _).bind skip = _
  rw [hname, Outcome.map_read, Outcome.bind_read]

theorem skip_next_member (opened : List Bracket) (before : Blanks) (name : List Letter)
    (afterName : Blanks) (rest : List Char) :
    skip (.behind (.object :: opened)) (',' :: (before.text ++ (Letter.quoted name ++
      (afterName.text ++ ':' :: rest)))) = skip (.value (.object :: opened)) rest := by
  have hname := skipName_text name afterName rest
  rw [skip_behind]
  unfold skipBehind
  rw [skipBlank_cons rfl]
  change ((skipName (skipBlank _)).map _).bind skip = _
  rw [Letter.quoted, List.append_assoc, List.cons_append] at hname ⊢
  rw [skipBlank_blanks, skipBlank_cons rfl, hname, Outcome.map_read, Outcome.bind_read]

theorem skip_object_end (opened : List Bracket) (rest : List Char) :
    skip (.behind (.object :: opened)) ('}' :: rest) = skip (.behind opened) rest := by
  rw [skip_behind]
  unfold skipBehind
  rw [skipBlank_cons rfl]
  rfl

-- The induction is on the spelling. What is open outside of it is only handed on.
mutual

theorem skip_spelling (opened : List Bracket) (s : Spelling) {rest : List Char}
    (hrest : Stops rest) :
    skip (.value opened) (s.text ++ rest) = skip (.behind opened) rest := by
  match s with
  | .null => exact skip_value_scalar opened rfl hrest
  | .bool b => exact skip_value_scalar opened rfl hrest
  | .number n => exact skip_value_scalar opened rfl hrest
  | .string letters => exact skip_value_scalar opened rfl hrest
  | .list inside [] =>
    simp only [Spelling.text, Spelling.textOfItems, List.cons_append, List.append_assoc,
      List.nil_append]
    exact skip_empty_list opened inside rest
  | .list inside (⟨before, value, after⟩ :: items) =>
    have hvalue := skip_spelling (.list :: opened) value (stops_blanks after (stops_items items rest))
    simp only [Spelling.text, Spelling.textOfItems, Spelling.comma, ↓reduceIte, List.cons_append,
      List.append_assoc, List.nil_append]
    rw [skip_first_item, hvalue, skip_behind_blanks]
    exact skip_items opened items rest
  | .object inside [] =>
    simp only [Spelling.text, Spelling.textOfMembers, List.cons_append, List.append_assoc,
      List.nil_append]
    exact skip_empty_object opened inside rest
  | .object inside (⟨before, name, afterName, beforeValue, value, after⟩ :: members) =>
    have hvalue :=
      skip_spelling (.object :: opened) value (stops_blanks after (stops_members members rest))
    simp only [Spelling.text, Spelling.textOfMembers, Spelling.comma, ↓reduceIte, List.cons_append,
      List.append_assoc, List.nil_append]
    rw [skip_first_member, skip_value_blanks, hvalue, skip_behind_blanks]
    exact skip_members opened members rest

theorem skip_items (opened : List Bracket) (items : List Spelling.Item) (rest : List Char) :
    skip (.behind (.list :: opened)) (Spelling.textOfItems false items ++ ']' :: rest) =
      skip (.behind opened) rest := by
  match items with
  | [] => exact skip_list_end opened rest
  | ⟨before, value, after⟩ :: items =>
    have hvalue := skip_spelling (.list :: opened) value (stops_blanks after (stops_items items rest))
    simp only [Spelling.textOfItems, Spelling.comma, Bool.false_eq_true, ↓reduceIte,
      List.cons_append, List.append_assoc, List.nil_append]
    rw [skip_next_item, skip_value_blanks, hvalue, skip_behind_blanks]
    exact skip_items opened items rest

theorem skip_members (opened : List Bracket) (members : List Spelling.Member) (rest : List Char) :
    skip (.behind (.object :: opened)) (Spelling.textOfMembers false members ++ '}' :: rest) =
      skip (.behind opened) rest := by
  match members with
  | [] => exact skip_object_end opened rest
  | ⟨before, name, afterName, beforeValue, value, after⟩ :: members =>
    have hvalue :=
      skip_spelling (.object :: opened) value (stops_blanks after (stops_members members rest))
    simp only [Spelling.textOfMembers, Spelling.comma, Bool.false_eq_true, ↓reduceIte,
      List.cons_append, List.append_assoc, List.nil_append]
    rw [skip_next_member, skip_value_blanks, hvalue, skip_behind_blanks]
    exact skip_members opened members rest

end

/-- Ignoring a value takes its text, whatever it means. -/
theorem ignored_spelling (blanks : Blanks) (s : Spelling) {rest : List Char} (hrest : Stops rest) :
    ignored.run (blanks.text ++ (s.text ++ rest)) = .read () rest := by
  change (skipValue [] _).bind skip = _
  rw [← skip_value, skip_value_blanks, skip_spelling [] s hrest, skip_end rfl]

end StyleScope.Json
