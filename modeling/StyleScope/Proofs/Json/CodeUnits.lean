import StyleScope.Proofs.Json.Letters

/-!
# Strings with other escapes

A string may be spelled in many ways. Spellings with the same code units are the same string, or
none of them is one because a surrogate stands alone.
-/

namespace StyleScope.Json

/-- The code units of a character, two surrogates if it is beyond the first 65536. -/
def unitsOf (c : Char) : List Nat :=
  if c.toNat < 0x10000 then [c.toNat]
  else [0xD800 + (c.toNat - 0x10000) / 0x400, 0xDC00 + (c.toNat - 0x10000) % 0x400]

/-- The characters of code units, unless there is a surrogate without another one. -/
def charsOf? : List Nat → Option (List Char)
  | [] => some []
  | n :: units =>
    if isLowSurrogate n then none
    else if isHighSurrogate n then
      match units with
      | [] => none
      | low :: units =>
        if isLowSurrogate low then (charsOf? units).map (pairedChar n low :: ·) else none
    else (charsOf? units).map (Char.ofNat n :: ·)

theorem toNat_cases (c : Char) :
    (c.toNat < 0xD800 ∨ 0xDFFF < c.toNat ∧ c.toNat < 0x10000) ∨
      0x10000 ≤ c.toNat ∧ c.toNat < 0x110000 := by
  have hvalid : c.toNat < 0xD800 ∨ 0xDFFF < c.toNat ∧ c.toNat < 0x110000 := c.valid
  omega

theorem charsOf?_high {high low : Nat} (hhigh : isHighSurrogate high) (hlow : isLowSurrogate low)
    (units : List Nat) :
    charsOf? (high :: low :: units) = (charsOf? units).map (pairedChar high low :: ·) := by
  have hnot : isLowSurrogate high = false := by
    simp only [isHighSurrogate, isLowSurrogate, Bool.and_eq_true, decide_eq_true_eq,
      Bool.and_eq_false_iff, decide_eq_false_iff_not] at hhigh ⊢
    omega
  rw [charsOf?, hnot, hhigh, hlow]
  rfl

theorem charsOf?_single {n : Nat} (hlow : isLowSurrogate n = false)
    (hhigh : isHighSurrogate n = false) (units : List Nat) :
    charsOf? (n :: units) = (charsOf? units).map (Char.ofNat n :: ·) := by
  rw [charsOf?.eq_def]
  simp only [hlow, hhigh, Bool.false_eq_true, ↓reduceIte]

theorem charsOf?_low {n : Nat} (hlow : isLowSurrogate n) (units : List Nat) :
    charsOf? (n :: units) = none := by
  rw [charsOf?.eq_def]
  exact if_pos hlow

theorem charsOf?_unitsOf (c : Char) (units : List Nat) :
    charsOf? (unitsOf c ++ units) = (charsOf? units).map (c :: ·) := by
  unfold unitsOf
  rcases toNat_cases c with hsmall | hlarge
  · rw [if_pos (by omega), List.singleton_append, charsOf?_single, Char.ofNat_toNat]
    all_goals
      simp only [isHighSurrogate, isLowSurrogate, Bool.and_eq_false_iff, decide_eq_false_iff_not]
      omega
  · rw [if_neg (by omega), List.cons_append, List.singleton_append, charsOf?_high]
    · have hpaired : pairedChar (0xD800 + (c.toNat - 0x10000) / 0x400)
          (0xDC00 + (c.toNat - 0x10000) % 0x400) = c := by
        conv_rhs => rw [← Char.ofNat_toNat c]
        unfold pairedChar
        congr 1
        omega
      rw [hpaired]
    all_goals
      simp only [isHighSurrogate, isLowSurrogate, Bool.and_eq_true, decide_eq_true_eq]
      omega

theorem charsOf?_high_unitsOf {high : Nat} (hhigh : isHighSurrogate high) (c : Char)
    (units : List Nat) : charsOf? (high :: (unitsOf c ++ units)) = none := by
  have hfirst : ∃ first rest, unitsOf c ++ units = first :: rest ∧
      isLowSurrogate first = false := by
    unfold unitsOf
    rcases toNat_cases c with hsmall | hlarge
    · refine ⟨c.toNat, units, by rw [if_pos (by omega)]; rfl, ?_⟩
      simp only [isLowSurrogate, Bool.and_eq_false_iff, decide_eq_false_iff_not]
      omega
    · refine ⟨_, _ :: units, by rw [if_neg (by omega)]; rfl, ?_⟩
      simp only [isLowSurrogate, Bool.and_eq_false_iff, decide_eq_false_iff_not]
      omega
  obtain ⟨first, rest, heq, hlow⟩ := hfirst
  rw [heq, charsOf?, hhigh, hlow]
  split <;> rfl

namespace Letter

/-- The code units of what a letter stands for. -/
def units : Letter → List Nat
  | plain c _ => unitsOf c
  | short _ meant _ => unitsOf meant
  | numbered _ _ _ _ n _ => [n]

theorem values?_eq (letters : List Letter) :
    values? letters = charsOf? (letters.flatMap units) := by
  fun_induction values? letters with
  | case1 => rfl
  | case2 c h letters ih => rw [List.flatMap_cons, units, charsOf?_unitsOf, ih]
  | case3 c meant h letters ih => rw [List.flatMap_cons, units, charsOf?_unitsOf, ih]
  | case4 a b c d n h letters hlow =>
    rw [List.flatMap_cons, units, List.singleton_append, charsOf?_low hlow]
  | case5 a b c d n h hlow hhigh a' b' c' d' low h' letters hlow' ih =>
    rw [List.flatMap_cons, List.flatMap_cons, units, units, List.singleton_append,
      List.singleton_append, charsOf?_high hhigh hlow', ih]
  | case6 a b c d n h hlow hhigh a' b' c' d' low h' letters hlow' =>
    rw [List.flatMap_cons, List.flatMap_cons, units, units, List.singleton_append,
      List.singleton_append, charsOf?, if_neg hlow, if_pos hhigh]
    exact (if_neg hlow').symm
  | case7 a b c d n h letters hlow hhigh hother =>
    rw [List.flatMap_cons, units, List.singleton_append]
    rcases letters with _ | ⟨first, letters⟩
    · rw [List.flatMap_nil, charsOf?, if_neg hlow, if_pos hhigh]
    · cases first with
      | plain c h => exact (charsOf?_high_unitsOf hhigh c _).symm
      | short c meant h => exact (charsOf?_high_unitsOf hhigh meant _).symm
      | numbered a b c d n h => exact absurd rfl (hother a b c d n h letters)
  | case8 a b c d n h letters hlow hhigh ih =>
    rw [List.flatMap_cons, units, List.singleton_append, charsOf?_single, ih]
    · simpa using hlow
    · simpa using hhigh

/-- Two spellings of the same string, escaped in other ways. -/
def Respelled (letters letters' : List Letter) : Prop :=
  letters.flatMap units = letters'.flatMap units

/-- What letters mean depends on their code units only. -/
theorem Respelled.string?_eq {letters letters' : List Letter} (h : Respelled letters letters') :
    string? letters = string? letters' := by
  unfold string?
  rw [values?_eq, values?_eq, h]

end Letter

end StyleScope.Json
