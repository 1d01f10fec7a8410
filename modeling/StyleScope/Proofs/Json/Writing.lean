import StyleScope.Json.Basic
import StyleScope.Proofs.Json.Spelling

/-!
# What is written is spelled

The text that is written of a value spells the value, if its numbers are natural and have room in 64
bits.
-/

namespace StyleScope.Json

/-! ## Strings -/

theorem hexValue?_hexQuad {n : Nat} (h : n < 32) :
    ∃ a b c d, hexQuad n = [a, b, c, d] ∧ hexValue? a b c d = some n := by
  interval_cases n <;> exact ⟨_, _, _, _, rfl, rfl⟩

theorem toNat_lt_of_lt_space {c : Char} (h : c < ' ') : c.toNat < 32 := h

theorem exists_letter (c : Char) :
    ∃ letter : Letter, letter.text = writtenChar c ∧
      ∀ letters, Letter.values? (letter :: letters) = (Letter.values? letters).map (c :: ·) := by
  have hshort : ∀ short meant, shortEscape? short = some meant → writtenChar meant = ['\\', short] →
      ∃ letter : Letter, letter.text = writtenChar meant ∧
        ∀ letters, Letter.values? (letter :: letters) = (Letter.values? letters).map (meant :: ·) := by
    intro short meant h htext
    exact ⟨.short short meant h, htext.symm, fun _ => rfl⟩
  -- The characters with an escape of their own come first, as they are written with it.
  by_cases hquote : c = '"'
  · subst hquote
    exact hshort '"' _ rfl rfl
  by_cases hbackslash : c = '\\'
  · subst hbackslash
    exact hshort '\\' _ rfl rfl
  by_cases hb : c = '\x08'
  · subst hb
    exact hshort 'b' _ rfl rfl
  by_cases hf : c = '\x0c'
  · subst hf
    exact hshort 'f' _ rfl rfl
  by_cases hn : c = '\n'
  · subst hn
    exact hshort 'n' _ rfl rfl
  by_cases hr : c = '\r'
  · subst hr
    exact hshort 'r' _ rfl rfl
  by_cases ht : c = '\t'
  · subst ht
    exact hshort 't' _ rfl rfl
  by_cases hlt : c < ' '
  · have hnat := toNat_lt_of_lt_space hlt
    obtain ⟨x, y, z, w, hquad, hvalue⟩ := hexValue?_hexQuad hnat
    refine ⟨.numbered x y z w c.toNat hvalue, ?_, ?_⟩
    · simp only [Letter.text, writtenChar, hquote, hbackslash, hb, hf, hn, hr, ht, hlt, hquad,
        ↓reduceIte]
    · intro letters
      have hlow : isLowSurrogate c.toNat = false := by simp [isLowSurrogate]; omega
      have hhigh : isHighSurrogate c.toNat = false := by simp [isHighSurrogate]; omega
      rw [Letter.values?.eq_def]
      simp only [hlow, hhigh, Bool.false_eq_true, ↓reduceIte, Char.ofNat_toNat]
  · refine ⟨.plain c ⟨hquote, hbackslash, hlt⟩, ?_, ?_⟩
    · simp only [Letter.text, writtenChar, hquote, hbackslash, hb, hf, hn, hr, ht, hlt, ↓reduceIte]
    · intro letters
      rw [Letter.values?]

theorem exists_letters (s : String) :
    ∃ letters, Letter.quoted letters = writeString s ∧ Letter.string? letters = some s := by
  have hchars : ∀ chars : List Char, ∃ letters,
      letters.flatMap Letter.text = chars.flatMap writtenChar ∧
        Letter.values? letters = some chars := by
    intro chars
    induction chars with
    | nil => exact ⟨[], rfl, rfl⟩
    | cons c chars ih =>
      obtain ⟨letter, htext, hvalues⟩ := exists_letter c
      obtain ⟨letters, htexts, hletters⟩ := ih
      refine ⟨letter :: letters, ?_, ?_⟩
      · rw [List.flatMap_cons, List.flatMap_cons, htext, htexts]
      · rw [hvalues, hletters, Option.map_some]
  obtain ⟨letters, htext, hvalues⟩ := hchars s.toList
  refine ⟨letters, ?_, ?_⟩
  · rw [Letter.quoted, htext, writeString]
  · rw [Letter.string?, hvalues, Option.map_some, String.ofList_toList]

/-! ## Numbers -/

theorem le_ofDigitChars (digits : List Char) (n : Nat) : n ≤ Nat.ofDigitChars 10 digits n := by
  induction digits generalizing n with
  | nil => exact Nat.le_of_eq Nat.ofDigitChars_nil.symm
  | cons c digits ih =>
    have hnext := ih (10 * n + (c.toNat - '0'.toNat))
    rw [Nat.ofDigitChars_cons]
    omega

theorem gather_eq {digits : List Char} {significand : Nat}
    (h : Nat.ofDigitChars 10 digits significand ≤ greatestSignificand) :
    gather significand digits = (Nat.ofDigitChars 10 digits significand, 0) := by
  induction digits generalizing significand with
  | nil => rw [gather, Nat.ofDigitChars_nil]
  | cons c digits ih =>
    have hnext : 10 * significand + (c.toNat - '0'.toNat) = significand * 10 + digitValue c := by
      rw [Nat.mul_comm]
      rfl
    rw [Nat.ofDigitChars_cons, hnext] at h ⊢
    have hle := Nat.le_trans (le_ofDigitChars digits _) h
    rw [gather]
    simp only [if_neg (Nat.not_lt.mpr hle)]
    exact ih h

theorem digitChar_ne_zero {n : Nat} (hpos : 0 < n) (hlt : n < 10) : n.digitChar ≠ '0' := by
  have hall : ∀ n < 10, 0 < n → n.digitChar ≠ '0' := by decide
  exact hall n hlt hpos

theorem head?_toDigits {n : Nat} (h : 0 < n) : (Nat.toDigits 10 n).head? ≠ some '0' := by
  induction n using Nat.strongRecOn with
  | ind n ih =>
    by_cases hlt : n < 10
    · rw [Nat.toDigits_of_lt_base hlt]
      simpa using digitChar_ne_zero h hlt
    · have hhead := ih (n / 10) (by omega) (by omega)
      obtain ⟨c, digits, heq⟩ := List.exists_cons_of_ne_nil (Nat.toDigits_ne_nil (b := 10) (n := n / 10))
      rw [Nat.toDigits_of_base_le (by decide) (by omega), heq, List.cons_append]
      rw [heq] at hhead
      exact hhead

def Numeral.ofNat (n : Nat) : Numeral where
  negative := false
  whole := ⟨Nat.toDigits 10 n, Nat.toDigits_ne_nil,
    fun _ => Nat.isDigit_of_mem_toDigits (by decide) (by decide)⟩
  noZeros := by
    rcases Nat.eq_zero_or_pos n with rfl | h
    · exact .inl (Nat.toDigits_zero 10)
    · exact .inr (head?_toDigits h)
  fraction := none
  exponent := none

theorem text_ofNat (n : Nat) : (Numeral.ofNat n).text = writeNumber (.integer n) := by
  simp [Numeral.text, Numeral.unsigned, Numeral.ofNat, Numeral.fractionText,
    Exponent.optionalText, writeNumber, Int.repr]

theorem value?_ofNat {n : Nat} (h : n ≤ greatestSignificand) :
    (Numeral.ofNat n).value? = some (.integer n) := by
  have hgather : gather 0 (Nat.toDigits 10 n) = (n, 0) := by
    rw [gather_eq] <;> rw [Nat.ofDigitChars_ten_toDigits]
    exact h
  simp only [Numeral.value?, Numeral.ofNat, hgather]
  rfl

/-! ## Values -/

mutual

/-- Every number in a value is natural and has room in 64 bits. -/
def Counted : Json → Prop
  | .number n => ∃ k : Nat, k ≤ greatestSignificand ∧ n = .integer k
  | .list items => CountedItems items
  | .object members => CountedMembers members
  | _ => True

def CountedItems : List Json → Prop
  | [] => True
  | item :: items => item.Counted ∧ CountedItems items

def CountedMembers : List Member → Prop
  | [] => True
  | (_, value) :: members => value.Counted ∧ CountedMembers members

end

mutual

/-- What is written of a value spells it. -/
theorem exists_spelling (json : Json) (h : json.Counted) :
    ∃ s : Spelling, s.text = json.write ∧ s.value? = some json ∧ s.depth = json.depth := by
  match json with
  | .null => exact ⟨.null, rfl, rfl, rfl⟩
  | .bool true => exact ⟨.bool true, rfl, rfl, rfl⟩
  | .bool false => exact ⟨.bool false, rfl, rfl, rfl⟩
  | .number n =>
    obtain ⟨k, hk, rfl⟩ := h
    exact ⟨.number (.ofNat k), text_ofNat k, by rw [Spelling.value?, value?_ofNat hk]; rfl, rfl⟩
  | .string s =>
    obtain ⟨letters, htext, hstring⟩ := exists_letters s
    exact ⟨.string letters, htext, by rw [Spelling.value?, hstring]; rfl, rfl⟩
  | .list items =>
    obtain ⟨inner, htext, -, hitems, hdepth⟩ := exists_items items h
    exact ⟨.list .none inner, htext, by rw [Spelling.value?, hitems]; rfl,
      by rw [Spelling.depth, hdepth, depth]⟩
  | .object members =>
    obtain ⟨inner, htext, -, hmembers, hdepth⟩ := exists_members members h
    exact ⟨.object .none inner, htext, by rw [Spelling.value?, hmembers]; rfl,
      by rw [Spelling.depth, hdepth, depth]⟩

-- The items of a list are spelled alike at its start and behind an item, but for a comma.
theorem exists_items (items : List Json) (h : CountedItems items) :
    ∃ inner, (Spelling.list .none inner).text = (Json.list items).write ∧
      Spelling.textOfItems false inner ++ [']'] = writeItems items ∧
      Spelling.items? inner = some items ∧ Spelling.depthOfItems inner = depthOfItems items := by
  match items with
  | [] => exact ⟨[], rfl, rfl, rfl, rfl⟩
  | item :: items =>
    obtain ⟨hitem, hitems⟩ := h
    obtain ⟨s, htext, hvalue, hdepth⟩ := exists_spelling item hitem
    obtain ⟨inner, -, htexts, hvalues, hdepths⟩ := exists_items items hitems
    refine ⟨⟨.none, s, .none⟩ :: inner, ?_, ?_, ?_, ?_⟩
    · simp only [Spelling.text, Spelling.textOfItems, Blanks.none, Spelling.comma, ↓reduceIte,
        List.nil_append, List.append_assoc, htext, htexts, write]
      rfl
    · simp only [Spelling.textOfItems, Blanks.none, Spelling.comma, Bool.false_eq_true, ↓reduceIte,
        List.nil_append, List.append_assoc, htext, htexts, writeItems]
      rfl
    · rw [Spelling.items?, hvalue, hvalues]
      rfl
    · rw [Spelling.depthOfItems, hdepth, hdepths, depthOfItems]

theorem exists_members (members : List Member) (h : CountedMembers members) :
    ∃ inner, (Spelling.object .none inner).text = (Json.object members).write ∧
      Spelling.textOfMembers false inner ++ ['}'] = writeMembers members ∧
      Spelling.members? inner = some members ∧
      Spelling.depthOfMembers inner = depthOfMembers members := by
  match members with
  | [] => exact ⟨[], rfl, rfl, rfl, rfl⟩
  | (name, value) :: members =>
    obtain ⟨hvalue, hmembers⟩ := h
    obtain ⟨letters, hletters, hname⟩ := exists_letters name
    obtain ⟨s, htext, hvalue, hdepth⟩ := exists_spelling value hvalue
    obtain ⟨inner, -, htexts, hvalues, hdepths⟩ := exists_members members hmembers
    refine ⟨⟨.none, letters, .none, .none, s, .none⟩ :: inner, ?_, ?_, ?_, ?_⟩
    · simp only [Spelling.text, Spelling.textOfMembers, Blanks.none, Spelling.comma, ↓reduceIte,
        List.nil_append, List.append_assoc, List.cons_append, hletters, htext, htexts, write]
    · simp only [Spelling.textOfMembers, Blanks.none, Spelling.comma, Bool.false_eq_true,
        ↓reduceIte, List.nil_append, List.append_assoc, List.cons_append, hletters, htext, htexts,
        writeMembers]
    · rw [Spelling.members?, hname, hvalue, hvalues]
      rfl
    · rw [Spelling.depthOfMembers, hdepth, hdepths, depthOfMembers]

end

end StyleScope.Json
