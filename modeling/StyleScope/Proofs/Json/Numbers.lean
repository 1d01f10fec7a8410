import StyleScope.Proofs.Json.Gives

/-!
# Reading numbers

A number is read as what its numeral means, if what follows cannot belong to it.
-/

namespace StyleScope.Json

/-- No digit comes next. -/
def NoDigit (text : List Char) : Prop := ∀ c rest, text = c :: rest → c.isDigit = false

/-- Nothing comes next that could belong to a number. -/
def Stops (text : List Char) : Prop :=
  ∀ c rest, text = c :: rest → c.isDigit = false ∧ c ≠ '.' ∧ c ≠ 'e' ∧ c ≠ 'E'

theorem Stops.noDigit {text : List Char} (h : Stops text) : NoDigit text := by
  intro c rest heq
  exact (h c rest heq).1

theorem noDigit_cons {c : Char} (h : c.isDigit = false) (rest : List Char) :
    NoDigit (c :: rest) := by
  rintro _ _ ⟨rfl, rfl⟩
  exact h

theorem stops_cons {c : Char} (h : c.isDigit = false ∧ c ≠ '.' ∧ c ≠ 'e' ∧ c ≠ 'E')
    (rest : List Char) : Stops (c :: rest) := by
  rintro _ _ ⟨rfl, rfl⟩
  exact h

/-! ## Digits -/

theorem takeWhile_digits {digits rest : List Char} (h : ∀ c ∈ digits, c.isDigit)
    (hrest : NoDigit rest) : (digits ++ rest).takeWhile Char.isDigit = digits := by
  rw [List.takeWhile_append_of_pos h]
  rcases rest with _ | ⟨c, rest⟩
  · simp
  · rw [List.takeWhile_cons_of_neg (by simp [hrest c rest rfl]), List.append_nil]

theorem dropWhile_digits {digits rest : List Char} (h : ∀ c ∈ digits, c.isDigit)
    (hrest : NoDigit rest) : (digits ++ rest).dropWhile Char.isDigit = rest := by
  rw [List.dropWhile_append_of_pos h]
  rcases rest with _ | ⟨c, rest⟩
  · rfl
  · rw [List.dropWhile_cons_of_neg (by simp [hrest c rest rfl])]

theorem startsWithDigit_eq_false {text : List Char} (h : NoDigit text) :
    startsWithDigit text = false := by
  rcases text with _ | ⟨c, rest⟩
  · rfl
  · simpa [startsWithDigit] using h c rest rfl

theorem digitValue_le {c : Char} (h : c.isDigit) : digitValue c ≤ 9 := by
  simp only [Char.isDigit, Bool.and_eq_true, decide_eq_true_eq] at h
  have : c.toNat ≤ 57 := h.2
  unfold digitValue
  simp only [show '0'.toNat = 48 from rfl]
  omega

/-! ## The power of ten -/

theorem exponentDigits_of_noDigit (value : Nat) {rest : List Char} (h : NoDigit rest) :
    exponentDigits value rest = (some value, rest) := by
  rcases rest with _ | ⟨c, rest⟩
  · rfl
  · rw [exponentDigits, if_neg (by simp [h c rest rfl])]

theorem exponentDigits_append (value : Nat) {digits rest : List Char}
    (h : ∀ c ∈ digits, c.isDigit) (hrest : NoDigit rest) :
    (∃ n, (exponentDigits value digits).1 = some n ∧
      exponentDigits value (digits ++ rest) = (some n, rest)) ∨
    ((exponentDigits value digits).1 = none ∧
      ∃ left, (∀ c ∈ left, c.isDigit) ∧
        exponentDigits value (digits ++ rest) = (none, left ++ rest)) := by
  induction digits generalizing value with
  | nil =>
    left
    exact ⟨value, rfl, exponentDigits_of_noDigit value hrest⟩
  | cons c digits ih =>
    have hdigits : ∀ c ∈ digits, c.isDigit := by
      intro c hc
      exact h c (List.mem_cons_of_mem _ hc)
    simp only [List.cons_append, exponentDigits, if_pos (h c List.mem_cons_self)]
    by_cases hbig : greatestExponent < value * 10 + digitValue c
    · right
      simp only [if_pos hbig]
      exact ⟨trivial, digits, hdigits, rfl⟩
    · simp only [if_neg hbig]
      exact ih _ hdigits

theorem exponentDigits_first {c : Char} (h : c.isDigit) (digits : List Char) :
    exponentDigits 0 (c :: digits) = exponentDigits (digitValue c) digits := by
  have hle := digitValue_le h
  have hsmall : ¬ greatestExponent < digitValue c := by
    unfold greatestExponent
    omega
  rw [exponentDigits, if_pos h]
  simp only [Nat.zero_mul, Nat.zero_add]
  rw [if_neg hsmall]

theorem scaled_gives (negative : Bool) (significand : Nat) (exponent : Int) (rest : List Char) :
    (scaled negative significand exponent rest).Gives
      (Numeral.float? negative significand exponent) rest := by
  unfold scaled Numeral.float?
  rcases Binary64.ofDecimal significand exponent with _ | x
  · exact Outcome.gives_fault _ _ rest
  · exact Outcome.gives_read _ rest

theorem exponentSign_signText (negative? : Option Bool) (digits : Digits) (rest : List Char) :
    exponentSign (Exponent.signText negative? ++ digits.chars ++ rest) =
      (negative?.getD false, digits.chars ++ rest) := by
  match negative? with
  | some false => rfl
  | some true => rfl
  | none =>
    obtain ⟨chars, hne, hdigit⟩ := digits
    obtain ⟨c, chars, rfl⟩ := List.exists_cons_of_ne_nil hne
    have hc := hdigit c List.mem_cons_self
    simp only [Exponent.signText, List.nil_append, List.cons_append]
    unfold exponentSign
    split
    · rename_i heq
      obtain ⟨rfl, -⟩ := List.cons.inj heq
      exact absurd hc (by decide)
    · rename_i heq
      obtain ⟨rfl, -⟩ := List.cons.inj heq
      exact absurd hc (by decide)
    · rfl

theorem exponentPart_gives (negative : Bool) (significand : Nat) (exponent : Int)
    (power : Exponent) {rest : List Char} (hrest : NoDigit rest) :
    (exponentPart negative significand exponent
      (Exponent.signText power.negative? ++ power.digits.chars ++ rest)).Gives
      (Numeral.power? negative significand exponent power) rest := by
  rw [exponentPart, exponentSign_signText]
  obtain ⟨mark, hmark, negative?, ⟨chars, hne, hdigit⟩⟩ := power
  obtain ⟨c, chars, rfl⟩ := List.exists_cons_of_ne_nil hne
  have hc := hdigit c List.mem_cons_self
  have hchars : ∀ c ∈ chars, c.isDigit := by
    intro c hc
    exact hdigit c (List.mem_cons_of_mem _ hc)
  simp only [Numeral.power?, exponentDigits_first hc, List.cons_append, exponentValue, if_pos hc]
  rcases exponentDigits_append (digitValue c) hchars hrest with
    ⟨n, hvalue, htext⟩ | ⟨hvalue, left, hleft, htext⟩
  · simp only [hvalue, htext]
    exact scaled_gives ..
  · simp only [hvalue, htext, dropWhile_digits hleft hrest]
    split
    · exact Outcome.gives_read _ rest
    · exact Outcome.gives_fault _ _ rest

/-! ## After the digits before the point -/

theorem noDigit_optionalText (power : Option Exponent) {rest : List Char} (hrest : NoDigit rest) :
    NoDigit (Exponent.optionalText power ++ rest) := by
  rcases power with _ | power
  · exact hrest
  · apply noDigit_cons
    rcases power.isMark with h | h <;> rw [h] <;> rfl

theorem exponentPart?_gives (negative : Bool) (significand : Nat) (exponent : Int)
    (power : Option Exponent) {rest : List Char} (hrest : Stops rest) :
    (exponentPart? negative significand exponent (Exponent.optionalText power ++ rest)).Gives
      (Numeral.optionalPower? negative significand exponent power) rest := by
  rcases power with _ | power
  · simp only [Exponent.optionalText, List.nil_append]
    unfold exponentPart?
    split
    · exact absurd rfl (hrest _ _ rfl).2.2.1
    · exact absurd rfl (hrest _ _ rfl).2.2.2
    · exact scaled_gives ..
  · have hpart := exponentPart_gives negative significand exponent power hrest.noDigit
    obtain ⟨mark, hmark, negative?, digits⟩ := power
    rcases hmark with rfl | rfl <;> exact hpart

theorem fractionPart_gives (negative : Bool) (significand : Nat) (exponent : Int)
    (fraction : Digits) (power : Option Exponent) {rest : List Char} (hrest : Stops rest) :
    (fractionPart negative significand exponent
      (fraction.chars ++ (Exponent.optionalText power ++ rest))).Gives
      (Numeral.optionalPower? negative (gather significand fraction.chars).1
        (exponent + (gather significand fraction.chars).2 - fraction.chars.length) power) rest := by
  have hnext := noDigit_optionalText power hrest.noDigit
  unfold fractionPart
  rw [takeWhile_digits fraction.isDigit hnext, dropWhile_digits fraction.isDigit hnext]
  split
  · rename_i heq
    exact absurd heq fraction.ne_nil
  · apply exponentPart?_gives
    exact hrest

theorem wholeNumber_gives (negative : Bool) (significand : Nat) (rest : List Char) :
    (wholeNumber negative significand rest).Gives (Numeral.whole? negative significand) rest := by
  unfold wholeNumber Numeral.whole?
  cases negative with
  | false => exact Outcome.gives_read _ rest
  | true =>
    have hbound : 2 ^ 63 = 0x8000000000000000 := by rfl
    simp only [↓reduceIte, hbound]
    split
    · exact scaled_gives ..
    · exact Outcome.gives_read _ rest

/-! ## Whole numerals -/

namespace Numeral

theorem value?_eq (n : Numeral) :
    n.value? =
      match n.fraction with
      | none =>
        match n.exponent with
        | none =>
          if (gather 0 n.whole.chars).2 = 0 then whole? n.negative (gather 0 n.whole.chars).1
          else float? n.negative (gather 0 n.whole.chars).1 (gather 0 n.whole.chars).2
        | some power =>
          power? n.negative (gather 0 n.whole.chars).1 (gather 0 n.whole.chars).2 power
      | some fraction =>
        optionalPower? n.negative (gather (gather 0 n.whole.chars).1 fraction.chars).1
          ((gather 0 n.whole.chars).2 + (gather (gather 0 n.whole.chars).1 fraction.chars).2 -
            fraction.chars.length) n.exponent := by
  unfold value?
  cases n.fraction <;> cases n.exponent <;> rfl

end Numeral

theorem afterWhole_gives (n : Numeral) {rest : List Char} (hrest : Stops rest) :
    (afterWhole n.negative (gather 0 n.whole.chars).1 (gather 0 n.whole.chars).2
      (Numeral.fractionText n.fraction ++ (Exponent.optionalText n.exponent ++ rest))).Gives
      n.value? rest := by
  rw [Numeral.value?_eq]
  cases n.fraction with
  | some fraction => exact fractionPart_gives _ _ _ fraction n.exponent hrest
  | none =>
    cases n.exponent with
    | some power =>
      have hpart := exponentPart_gives n.negative (gather 0 n.whole.chars).1
        (gather 0 n.whole.chars).2 power hrest.noDigit
      obtain ⟨mark, hmark, negative?, digits⟩ := power
      rcases hmark with rfl | rfl <;> exact hpart
    | none =>
      simp only [Numeral.fractionText, Exponent.optionalText, List.nil_append]
      unfold afterWhole
      split
      · exact absurd rfl (hrest _ _ rfl).2.1
      · exact absurd rfl (hrest _ _ rfl).2.2.1
      · exact absurd rfl (hrest _ _ rfl).2.2.2
      · split
        · exact wholeNumber_gives ..
        · exact scaled_gives ..

theorem noDigit_fractionText (fraction : Option Digits) {rest : List Char}
    (hrest : NoDigit rest) : NoDigit (Numeral.fractionText fraction ++ rest) := by
  rcases fraction with _ | fraction
  · exact hrest
  · exact noDigit_cons rfl _

theorem numeral_gives (n : Numeral) {rest : List Char} (hrest : Stops rest) :
    (numeral n.negative (n.unsigned ++ rest)).Gives n.value? rest := by
  -- The first digit is looked at on its own: a zero stands alone.
  have hafter := afterWhole_gives n hrest
  have hnext := noDigit_fractionText n.fraction (noDigit_optionalText n.exponent hrest.noDigit)
  obtain ⟨c, chars, hwhole⟩ := List.exists_cons_of_ne_nil n.whole.ne_nil
  have hdigits := n.whole.isDigit
  have hzeros := n.noZeros
  rw [hwhole] at hafter hdigits hzeros
  simp only [Numeral.unsigned, hwhole, List.append_assoc, List.cons_append]
  unfold numeral
  split
  · rename_i heq
    cases heq
  · rename_i tail heq
    obtain ⟨rfl, rfl⟩ := List.cons.inj heq
    have hnil : chars = [] := by simpa using hzeros
    subst hnil
    rw [List.nil_append, startsWithDigit_eq_false hnext]
    exact hafter
  · rename_i c' tail hne heq
    obtain ⟨rfl, rfl⟩ := List.cons.inj heq
    have hchars : ∀ c ∈ chars, c.isDigit := by
      intro c hc
      exact hdigits c (List.mem_cons_of_mem _ hc)
    rw [if_pos (hdigits c List.mem_cons_self), ← List.cons_append, takeWhile_digits hdigits hnext,
      dropWhile_digits hchars hnext]
    exact hafter

end StyleScope.Json
