import StyleScope.Json.Ignored
import StyleScope.Proofs.Json.Letters
import StyleScope.Proofs.Json.Numbers
import StyleScope.Proofs.Json.Success

/-!
# Numbers and strings are read where they are spelled

What a reader takes from the front of a text is a numeral or the letters of a string. To ignore them
takes the same as to read them, so for numbers it is enough to look at how they are ignored.
-/

namespace StyleScope.Json

variable {α : Type}

/-! ## Digits -/

theorem noDigit_dropWhile (text : List Char) : NoDigit (text.dropWhile Char.isDigit) := by
  intro c rest heq
  have hhead := List.head?_dropWhile_not Char.isDigit text
  rw [heq] at hhead
  simpa using hhead

theorem exists_digits {c : Char} (h : c.isDigit) (rest : List Char) :
    ∃ digits : Digits, digits.chars = c :: rest.takeWhile Char.isDigit ∧
      c :: rest = digits.chars ++ rest.dropWhile Char.isDigit := by
  refine ⟨⟨c :: rest.takeWhile Char.isDigit, List.cons_ne_nil _ _, ?_⟩, rfl, ?_⟩
  · rw [List.forall_mem_cons]
    exact ⟨h, fun c hc => List.mem_takeWhile_imp hc⟩
  · rw [List.cons_append, List.takeWhile_append_dropWhile]

theorem exists_of_startsWithDigit {text : List Char} (h : startsWithDigit text) :
    ∃ c rest, text = c :: rest ∧ c.isDigit := by
  rcases text with _ | ⟨c, rest⟩
  · cases h
  · exact ⟨c, rest, rfl, h⟩

/-! ## Numbers that are ignored -/

theorem exists_signText (text : List Char) :
    ∃ negative?, text = Exponent.signText negative? ++ (exponentSign text).2 := by
  unfold exponentSign
  split
  · exact ⟨some false, rfl⟩
  · exact ⟨some true, rfl⟩
  · exact ⟨none, rfl⟩

theorem exists_exponent {mark : Char} (hmark : mark = 'e' ∨ mark = 'E') {text rest : List Char}
    (h : skipExponent text = .read () rest) :
    ∃ power : Exponent, mark :: text = power.text ++ rest := by
  obtain ⟨negative?, htext⟩ := exists_signText text
  unfold skipExponent at h
  split at h
  · cases h
  · rename_i c tail heq
    split at h
    · cases h
      obtain ⟨digits, -, hdigits⟩ := exists_digits ‹_› tail
      refine ⟨⟨mark, hmark, negative?, digits⟩, ?_⟩
      rw [htext, heq, hdigits]
      simp [Exponent.text]
    · cases h

theorem exists_optionalExponent {text rest : List Char} (h : skipExponent? text = .read () rest) :
    ∃ power : Option Exponent, text = Exponent.optionalText power ++ rest := by
  unfold skipExponent? at h
  split at h
  · obtain ⟨power, hpower⟩ := exists_exponent (.inl rfl) h
    exact ⟨some power, hpower⟩
  · obtain ⟨power, hpower⟩ := exists_exponent (.inr rfl) h
    exact ⟨some power, hpower⟩
  · cases h
    exact ⟨none, rfl⟩

theorem exists_afterWhole {text rest : List Char} (h : skipAfterWhole text = .read () rest) :
    ∃ fraction power,
      text = Numeral.fractionText fraction ++ (Exponent.optionalText power ++ rest) := by
  unfold skipAfterWhole at h
  split at h
  · split at h
    · obtain ⟨c, tail, rfl, hc⟩ := exists_of_startsWithDigit ‹_›
      obtain ⟨digits, -, hdigits⟩ := exists_digits hc tail
      rw [List.dropWhile_cons_of_pos hc] at h
      obtain ⟨power, hpower⟩ := exists_optionalExponent h
      refine ⟨some digits, power, ?_⟩
      rw [hdigits, hpower]
      rfl
    · cases h
  · obtain ⟨power, hpower⟩ := exists_optionalExponent h
    exact ⟨none, power, hpower⟩

theorem exists_numeral (negative : Bool) {text rest : List Char}
    (h : skipNumeral text = .read () rest) :
    ∃ n : Numeral, n.negative = negative ∧ text = n.unsigned ++ rest := by
  unfold skipNumeral at h
  split at h
  · cases h
  · rename_i tail
    split at h
    · cases h
    · obtain ⟨fraction, power, hafter⟩ := exists_afterWhole h
      refine ⟨⟨negative, ⟨['0'], by simp, by simp⟩, .inl rfl, fraction, power⟩, rfl, ?_⟩
      rw [hafter]
      simp [Numeral.unsigned]
  · rename_i c tail hzero
    split at h
    · obtain ⟨fraction, power, hafter⟩ := exists_afterWhole h
      obtain ⟨digits, hchars, hdigits⟩ := exists_digits ‹_› tail
      have hfirst : digits.chars.head? ≠ some '0' := by
        rw [hchars]
        rintro hhead
        exact hzero (Option.some.inj hhead)
      refine ⟨⟨negative, digits, .inr hfirst, fraction, power⟩, rfl, ?_⟩
      rw [hdigits, hafter]
      simp [Numeral.unsigned]
    · cases h

/-! ## Numbers that are read -/

section

variable {negative : Bool} {significand : Nat} {exponent : Int} {text rest : List Char}
  {number : Number}

theorem scaled_read (h : scaled negative significand exponent text = .read number rest) :
    text = rest := by
  unfold scaled at h
  split at h
  · cases h
    rfl
  · cases h

theorem wholeNumber_read (h : wholeNumber negative significand text = .read number rest) :
    text = rest := by
  unfold wholeNumber at h
  split at h
  · split at h
    · exact scaled_read h
    · cases h
      rfl
  · cases h
    rfl

theorem skipExponent_of_read
    (h : exponentPart negative significand exponent text = .read number rest) :
    skipExponent text = .read () rest := by
  unfold exponentPart exponentValue at h
  unfold skipExponent
  generalize (exponentSign text).2 = unsigned at h ⊢
  rcases unsigned with _ | ⟨c, tail⟩
  · cases h
  · by_cases hc : c.isDigit
    · simp only [if_pos hc] at h ⊢
      have hfirst : ∀ c ∈ tail.takeWhile Char.isDigit, c.isDigit :=
        fun c hc => List.mem_takeWhile_imp hc
      have hdigits := exponentDigits_append (digitValue c) hfirst (noDigit_dropWhile tail)
      rw [List.takeWhile_append_dropWhile] at hdigits
      obtain ⟨n, -, heq⟩ | ⟨-, left, hleft, heq⟩ := hdigits
      · simp only [heq] at h
        rw [scaled_read h]
      · simp only [heq] at h
        split at h
        · rw [dropWhile_digits hleft (noDigit_dropWhile tail)] at h
          cases h
          rfl
        · cases h
    · simp only [if_neg hc] at h
      cases h

theorem skipExponent?_other (he : ∀ tail, text ≠ 'e' :: tail) (hE : ∀ tail, text ≠ 'E' :: tail) :
    skipExponent? text = .read () text := by
  unfold skipExponent?
  split
  · exact absurd rfl (he _)
  · exact absurd rfl (hE _)
  · rfl

theorem skipExponent?_of_read
    (h : exponentPart? negative significand exponent text = .read number rest) :
    skipExponent? text = .read () rest := by
  unfold exponentPart? at h
  split at h
  · exact skipExponent_of_read h
  · exact skipExponent_of_read h
  · cases scaled_read h
    exact skipExponent?_other ‹_› ‹_›

theorem skipAfterWhole_other (h : ∀ tail, text ≠ '.' :: tail) :
    skipAfterWhole text = skipExponent? text := by
  unfold skipAfterWhole
  split
  · exact absurd rfl (h _)
  · rfl

theorem skipAfterWhole_of_read {dropped : Nat}
    (h : afterWhole negative significand dropped text = .read number rest) :
    skipAfterWhole text = .read () rest := by
  unfold afterWhole at h
  split at h
  · rename_i tail
    unfold fractionPart at h
    split at h
    · split at h <;> cases h
    · rename_i hdigits
      have hstarts : startsWithDigit tail := by
        rcases tail with _ | ⟨c, tail⟩
        · exact (hdigits rfl).elim
        · by_contra hc
          exact hdigits (List.takeWhile_cons_of_neg hc)
      rw [skipAfterWhole, if_pos hstarts]
      exact skipExponent?_of_read h
  · exact skipExponent_of_read h
  · exact skipExponent_of_read h
  · rename_i hpoint he hE
    have heq : text = rest := by
      split at h
      · exact wholeNumber_read h
      · exact scaled_read h
    rw [skipAfterWhole_other hpoint, ← heq]
    exact skipExponent?_other he hE

theorem skipNumeral_digit {c : Char} (hc : c.isDigit) (hzero : c ≠ '0') (text : List Char) :
    skipNumeral (c :: text) = skipAfterWhole (text.dropWhile Char.isDigit) := by
  unfold skipNumeral
  split
  · rename_i heq
    cases heq
  · rename_i heq
    exact absurd (List.cons.inj heq).1 hzero
  · rename_i heq
    obtain ⟨rfl, rfl⟩ := List.cons.inj heq
    rw [if_pos hc]

theorem skipNumeral_of_read (h : numeral negative text = .read number rest) :
    skipNumeral text = .read () rest := by
  unfold numeral at h
  split at h
  · cases h
  · split at h
    · cases h
    · rw [skipNumeral, if_neg ‹_›]
      exact skipAfterWhole_of_read h
  · split at h
    · rw [skipNumeral_digit ‹_› ‹_›]
      exact skipAfterWhole_of_read h
    · cases h

end

/-! ## Strings -/

theorem exists_hexDigits {text rest : List Char} {n : Nat} (h : hexWord text = .read n rest) :
    ∃ a b c d, hexValue? a b c d = some n ∧ text = a :: b :: c :: d :: rest := by
  have hnot : ∀ text, (notHex text : Outcome Nat) ≠ .read n rest := by
    intro text
    unfold notHex
    split <;> nofun
  unfold hexWord at h
  split at h
  · split at h
    · cases h
      exact ⟨_, _, _, _, ‹_›, rfl⟩
    · exact absurd h (hnot _)
  · exact absurd h (hnot _)

theorem exists_of_escapeWith {short : Char → α} {numbered : List Char → Outcome α}
    {text rest : List Char} {value : α} (h : escapeWith short numbered text = .read value rest) :
    (∃ tail, text = 'u' :: tail ∧ numbered tail = .read value rest) ∨
      ∃ c meant, shortEscape? c = some meant ∧ text = c :: rest := by
  unfold escapeWith at h
  split at h
  · cases h
  · exact .inl ⟨_, rfl, h⟩
  · split at h
    · cases h
      exact .inr ⟨_, _, ‹_›, rfl⟩
    · cases h

theorem exists_letters_of_escape {text rest : List Char} {c : Char}
    (h : escape.run text = .read c rest) :
    ∃ letters : List Letter, '\\' :: text = letters.flatMap Letter.text ++ rest := by
  obtain ⟨tail, rfl, hnumbered⟩ | ⟨c, meant, hmeant, rfl⟩ := exists_of_escapeWith h
  · obtain ⟨n, left, hword, hchar⟩ := Outcome.eq_read_of_bind hnumbered
    obtain ⟨a, b, c, d, hn, rfl⟩ := exists_hexDigits hword
    split at hchar
    · cases hchar
    · split at hchar
      · unfold lowSurrogate at hchar
        split at hchar
        · obtain ⟨low, left, hword', hpair⟩ := Outcome.eq_read_of_bind hchar
          obtain ⟨a', b', c', d', hlow, rfl⟩ := exists_hexDigits hword'
          split at hpair
          -- Two surrogates are one character but two letters.
          · obtain ⟨-, rfl⟩ := Outcome.read.inj hpair
            exact ⟨[.numbered a b c d n hn, .numbered a' b' c' d' low hlow], rfl⟩
          · cases hpair
        all_goals cases hchar
      · cases hchar
        exact ⟨[.numbered a b c d n hn], rfl⟩
  · exact ⟨[.short c meant hmeant], rfl⟩

theorem exists_letters_of_skipEscape {text rest : List Char}
    (h : skipEscape.run text = .read () rest) :
    ∃ letters : List Letter, '\\' :: text = letters.flatMap Letter.text ++ rest := by
  obtain ⟨tail, rfl, hnumbered⟩ | ⟨c, meant, hmeant, rfl⟩ := exists_of_escapeWith h
  · obtain ⟨n, hword, -⟩ := Outcome.eq_read_of_map hnumbered
    obtain ⟨a, b, c, d, hn, rfl⟩ := exists_hexDigits hword
    exact ⟨[.numbered a b c d n hn], rfl⟩
  · exact ⟨[.short c meant hmeant], rfl⟩

theorem exists_letters_of_charsWith {escape : Reader α} {plain : Char → α}
    {control : List Char → Outcome (List α)}
    (hescape : ∀ text value rest, escape.run text = .read value rest →
      ∃ letters : List Letter, '\\' :: text = letters.flatMap Letter.text ++ rest)
    (hcontrol : ∀ text values rest, control text ≠ .read values rest) {text rest : List Char}
    {values : List α} (h : charsWith escape plain control text = .read values rest) :
    ∃ letters : List Letter, text = letters.flatMap Letter.text ++ '"' :: rest := by
  fun_induction charsWith escape plain control text generalizing values with
  | case1 => cases h
  | case2 left =>
    cases h
    exact ⟨[], rfl⟩
  | case3 left value rest' hrun ih =>
    obtain ⟨values, hvalues, -⟩ := Outcome.eq_read_of_map h
    obtain ⟨first, hfirst⟩ := hescape _ _ _ hrun
    obtain ⟨letters, rfl⟩ := ih hvalues
    refine ⟨first ++ letters, ?_⟩
    rw [hfirst, List.flatMap_append, List.append_assoc]
  | case4 => cases h
  | case5 => cases h
  | case6 c left => exact absurd h (hcontrol _ _ _)
  | case7 c left hquote hbackslash hc ih =>
    obtain ⟨values, hvalues, -⟩ := Outcome.eq_read_of_map h
    obtain ⟨letters, rfl⟩ := ih hvalues
    exact ⟨.plain c ⟨hquote, hbackslash, hc⟩ :: letters, rfl⟩

theorem exists_letters_of_quotedText {text rest : List Char} {s : String}
    (h : quotedText.run text = .read s rest) :
    ∃ letters, '"' :: text = Letter.quoted letters ++ rest := by
  obtain ⟨chars, hchars, -⟩ := Outcome.eq_read_of_map h
  obtain ⟨letters, rfl⟩ := exists_letters_of_charsWith
    (fun _ _ _ => exists_letters_of_escape) (fun _ _ _ heq => by cases heq) hchars
  exact ⟨letters, by simp [Letter.quoted]⟩

theorem exists_letters_of_skipQuoted {text rest : List Char}
    (h : skipQuoted.run text = .read () rest) :
    ∃ letters, '"' :: text = Letter.quoted letters ++ rest := by
  obtain ⟨skipped, hskipped, -⟩ := Outcome.eq_read_of_map h
  obtain ⟨letters, rfl⟩ := exists_letters_of_charsWith
    (fun _ _ _ => exists_letters_of_skipEscape) (fun _ _ _ heq => by cases heq) hskipped
  exact ⟨letters, by simp [Letter.quoted]⟩

/-! ## Scalars -/

theorem exists_literal {json json' : Json} {letters text rest : List Char}
    (h : literal json letters text = .read json' rest) : text = letters ++ rest := by
  fun_induction literal json letters text with
  | case1 =>
    cases h
    rfl
  | case2 => cases h
  | case3 c letters rest ih => rw [ih h, List.cons_append]
  | case4 => cases h

theorem exists_negative {text rest : List Char} (h : skipNumeral text = .read () rest) :
    ∃ s : Spelling, '-' :: text = s.text ++ rest := by
  obtain ⟨n, hsign, rfl⟩ := exists_numeral true h
  refine ⟨.number n, ?_⟩
  rw [Spelling.text, Numeral.text, if_pos hsign, List.cons_append]

theorem exists_positive {text rest : List Char} (h : skipNumeral text = .read () rest) :
    ∃ s : Spelling, text = s.text ++ rest := by
  obtain ⟨n, hsign, rfl⟩ := exists_numeral false h
  refine ⟨.number n, ?_⟩
  rw [Spelling.text, Numeral.text, if_neg (by simp [hsign])]

theorem exists_scalar {text rest : List Char} {json : Json} (h : scalar text = .read json rest) :
    ∃ s : Spelling, text = s.text ++ rest := by
  unfold scalar at h
  split at h
  · cases h
  · exact ⟨.null, by rw [exists_literal h]; rfl⟩
  · exact ⟨.bool true, by rw [exists_literal h]; rfl⟩
  · exact ⟨.bool false, by rw [exists_literal h]; rfl⟩
  · obtain ⟨s, hs, -⟩ := Outcome.eq_read_of_map h
    obtain ⟨letters, hletters⟩ := exists_letters_of_quotedText hs
    exact ⟨.string letters, hletters⟩
  · obtain ⟨number, hnumber, -⟩ := Outcome.eq_read_of_map h
    exact exists_negative (skipNumeral_of_read hnumber)
  · split at h
    · obtain ⟨number, hnumber, -⟩ := Outcome.eq_read_of_map h
      exact exists_positive (skipNumeral_of_read hnumber)
    · cases h

theorem exists_skipped {text rest : List Char} (h : skipScalar text = .read () rest) :
    ∃ s : Spelling, text = s.text ++ rest := by
  unfold skipScalar at h
  split at h
  · obtain ⟨letters, hletters⟩ := exists_letters_of_skipQuoted h
    exact ⟨.string letters, hletters⟩
  · exact exists_negative h
  · split at h
    · exact exists_positive h
    · obtain ⟨json, hjson, -⟩ := Outcome.eq_read_of_map h
      exact exists_scalar hjson
  · cases h

end StyleScope.Json
