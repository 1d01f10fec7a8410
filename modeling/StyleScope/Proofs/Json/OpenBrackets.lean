import StyleScope.Proofs.Json.Writing

/-!
# The open brackets of a text

How many brackets of a text are open at once is counted character by character. Brackets in strings
do not count. A spelled value comes to as many as the value is nested deep.
-/

namespace StyleScope.Json

/-! ## Counting -/

/-- Where a character of a text stands. -/
inductive Standing where
  | outside
  | inString
  /-- In a string, behind a backslash. -/
  | escaped

/-- What is known of a text before its next character. -/
structure Count where
  standing : Standing
  opened : Nat
  /-- The most brackets that were open at once. -/
  deepest : Nat

def Count.next (count : Count) (c : Char) : Count :=
  match count.standing with
  | .outside =>
    if c = '"' then { count with standing := .inString }
    else if c = '[' ∨ c = '{' then
      ⟨.outside, count.opened + 1, max count.deepest (count.opened + 1)⟩
    else if c = ']' ∨ c = '}' then { count with opened := count.opened - 1 }
    else count
  | .inString =>
    if c = '"' then { count with standing := .outside }
    else if c = '\\' then { count with standing := .escaped }
    else count
  | .escaped => { count with standing := .inString }

def Count.through (count : Count) (text : List Char) : Count := text.foldl next count

/-- The most brackets that are open at once in a text. -/
def nesting (text : String) : Nat := (Count.through ⟨.outside, 0, 0⟩ text.toList).deepest

namespace Count

variable {n m : Nat} {c : Char} {text : List Char}

theorem through_append (count : Count) (text rest : List Char) :
    count.through (text ++ rest) = (count.through text).through rest :=
  List.foldl_append

theorem through_cons (count : Count) (c : Char) (rest : List Char) :
    count.through (c :: rest) = (count.next c).through rest :=
  rfl

/-! ## Characters that do not count -/

/-- The characters that open or close strings and brackets, and the one before an escaped one. -/
def marks : List Char := ['"', '\\', '[', '{', ']', '}']

def Idle (c : Char) : Prop := c ∉ marks

theorem idle_of {p : Char → Bool} (hmarks : ∀ c ∈ marks, p c = false) (h : p c) : Idle c := by
  intro hmem
  rw [hmarks c hmem] at h
  cases h

theorem idle_of_isDigit (h : c.isDigit) : Idle c := idle_of (by simp [marks]) h

theorem idle_of_isBlank (h : isBlank c) : Idle c := idle_of (by simp [marks, isBlank]) h

theorem idle_of_hexDigit {n : Nat} (h : hexDigit? c = some n) : Idle c := by
  have hnone : ∀ c ∈ marks, (hexDigit? c).isSome = false := by simp [marks, hexDigit?]
  apply idle_of hnone
  rw [h]
  rfl

theorem next_idle (h : Idle c) {standing : Standing} (hs : standing ≠ .escaped) :
    next ⟨standing, n, m⟩ c = ⟨standing, n, m⟩ := by
  simp only [Idle, marks, List.mem_cons, List.not_mem_nil, or_false, not_or] at h
  cases standing with
  | outside => simp [next, h]
  | inString => simp [next, h]
  | escaped => exact absurd rfl hs

theorem through_idle (h : ∀ c ∈ text, Idle c) {standing : Standing} (hs : standing ≠ .escaped) :
    through ⟨standing, n, m⟩ text = ⟨standing, n, m⟩ := by
  induction text with
  | nil => rfl
  | cons c text ih =>
    rw [through_cons, next_idle (h c (by simp)) hs]
    exact ih fun c hc => h c (by simp [hc])

/-! ## Strings and numbers -/

theorem hexDigits_of_hexValue {a b c d : Char} {n : Nat} (h : hexValue? a b c d = some n) :
    ∀ x ∈ [a, b, c, d], ∃ k, hexDigit? x = some k := by
  unfold hexValue? at h
  obtain ⟨i, ha, h⟩ := Option.bind_eq_some_iff.mp h
  obtain ⟨j, hb, h⟩ := Option.bind_eq_some_iff.mp h
  obtain ⟨k, hc, h⟩ := Option.bind_eq_some_iff.mp h
  obtain ⟨l, hd, -⟩ := Option.bind_eq_some_iff.mp h
  simp [ha, hb, hc, hd]

theorem through_letter (letter : Letter) :
    through ⟨.inString, n, m⟩ letter.text = ⟨.inString, n, m⟩ := by
  cases letter with
  | plain c h =>
    obtain ⟨hquote, hbackslash, -⟩ := h
    simp [Letter.text, through, next, hquote, hbackslash]
  | short c meant h => rfl
  | numbered a b c d k h =>
    -- The backslash and the `u` come back into the string, and the digits stay in it.
    have hidle : ∀ x ∈ [a, b, c, d], Idle x := by
      intro x hx
      obtain ⟨k, hk⟩ := hexDigits_of_hexValue h x hx
      exact idle_of_hexDigit hk
    exact through_idle hidle (by simp)

theorem through_quoted (letters : List Letter) :
    through ⟨.outside, n, m⟩ (Letter.quoted letters) = ⟨.outside, n, m⟩ := by
  have hletters : through ⟨.inString, n, m⟩ (letters.flatMap Letter.text) = ⟨.inString, n, m⟩ := by
    induction letters with
    | nil => rfl
    | cons letter letters ih => rw [List.flatMap_cons, through_append, through_letter, ih]
  have hopen : next ⟨.outside, n, m⟩ '"' = ⟨.inString, n, m⟩ := rfl
  rw [Letter.quoted, List.cons_append, through_cons, hopen, through_append, hletters]
  rfl

theorem idle_digits (digits : Digits) : ∀ c ∈ digits.chars, Idle c :=
  fun c hc => idle_of_isDigit (digits.isDigit c hc)

theorem idle_exponent (exponent : Exponent) : ∀ c ∈ exponent.text, Idle c := by
  have hsign : ∀ c ∈ Exponent.signText exponent.negative?, Idle c := by
    rcases exponent.negative? with _ | _ | _ <;> simp [Exponent.signText, Idle, marks]
  have hmark : Idle exponent.mark := by
    rcases exponent.isMark with h | h <;> rw [h] <;> simp [Idle, marks]
  intro c hc
  rw [Exponent.text, List.cons_append, List.mem_cons, List.mem_append] at hc
  rcases hc with rfl | hc | hc
  · exact hmark
  · exact hsign c hc
  · exact idle_digits _ c hc

theorem idle_numeral (numeral : Numeral) : ∀ c ∈ numeral.text, Idle c := by
  have hfraction : ∀ c ∈ Numeral.fractionText numeral.fraction, Idle c := by
    rcases numeral.fraction with _ | fraction
    · simp [Numeral.fractionText]
    · simpa [Numeral.fractionText] using ⟨by simp [Idle, marks], idle_digits fraction⟩
  have hexponent : ∀ c ∈ Exponent.optionalText numeral.exponent, Idle c := by
    rcases numeral.exponent with _ | exponent
    · simp [Exponent.optionalText]
    · exact idle_exponent exponent
  have hunsigned : ∀ c ∈ numeral.unsigned, Idle c := by
    intro c hc
    rw [Numeral.unsigned, List.mem_append, List.mem_append] at hc
    rcases hc with hc | hc | hc
    · exact idle_digits _ c hc
    · exact hfraction c hc
    · exact hexponent c hc
  intro c hc
  unfold Numeral.text at hc
  split at hc
  · rcases List.mem_cons.mp hc with rfl | hc
    · simp [Idle, marks]
    · exact hunsigned c hc
  · exact hunsigned c hc

/-! ## Values -/

theorem through_blanks (blanks : Blanks) :
    through ⟨.outside, n, m⟩ blanks.text = ⟨.outside, n, m⟩ :=
  through_idle (fun c hc => idle_of_isBlank (blanks.isBlank c hc)) (by simp)

theorem through_comma (first : Bool) :
    through ⟨.outside, n, m⟩ (Spelling.comma first) = ⟨.outside, n, m⟩ := by
  cases first <;> rfl

mutual

-- The counts differ from one part of a value to the next, so they are bound here.

theorem through_spelling (s : Spelling) {n m : Nat} (h : n ≤ m) :
    through ⟨.outside, n, m⟩ s.text = ⟨.outside, n, max m (n + s.depth)⟩ := by
  have hscalar : (⟨.outside, n, m⟩ : Count) = ⟨.outside, n, max m (n + 0)⟩ := by
    rw [Nat.add_zero, Nat.max_eq_left h]
  match s with
  | .null | .bool true | .bool false => exact hscalar
  | .number numeral => exact (through_idle (idle_numeral numeral) (by simp)).trans hscalar
  | .string letters => exact (through_quoted letters).trans hscalar
  | .list inside items =>
    have hopen : next ⟨.outside, n, m⟩ '[' = ⟨.outside, n + 1, max m (n + 1)⟩ := rfl
    have hclose (k : Nat) : through ⟨.outside, n + 1, k⟩ [']'] = ⟨.outside, n, k⟩ := rfl
    rw [Spelling.text, through_cons, hopen, through_append, through_blanks, through_append,
      through_items true items (Nat.le_max_right ..), hclose, Spelling.depth, Nat.max_assoc]
    congr 2
    omega
  | .object inside members =>
    have hopen : next ⟨.outside, n, m⟩ '{' = ⟨.outside, n + 1, max m (n + 1)⟩ := rfl
    have hclose (k : Nat) : through ⟨.outside, n + 1, k⟩ ['}'] = ⟨.outside, n, k⟩ := rfl
    rw [Spelling.text, through_cons, hopen, through_append, through_blanks, through_append,
      through_members true members (Nat.le_max_right ..), hclose, Spelling.depth, Nat.max_assoc]
    congr 2
    omega

theorem through_items (first : Bool) (items : List Spelling.Item) {n m : Nat} (h : n ≤ m) :
    through ⟨.outside, n, m⟩ (Spelling.textOfItems first items) =
      ⟨.outside, n, max m (n + Spelling.depthOfItems items)⟩ := by
  match items with
  | [] =>
    rw [Spelling.depthOfItems, Nat.add_zero, Nat.max_eq_left h]
    rfl
  | ⟨before, value, after⟩ :: items =>
    rw [Spelling.textOfItems, through_append, through_comma, through_append, through_blanks,
      through_append, through_spelling value h, through_append, through_blanks,
      through_items false items (Nat.le_trans h (Nat.le_max_left ..)), Spelling.depthOfItems,
      Nat.max_assoc, Nat.add_max_add_left]

theorem through_members (first : Bool) (members : List Spelling.Member) {n m : Nat} (h : n ≤ m) :
    through ⟨.outside, n, m⟩ (Spelling.textOfMembers first members) =
      ⟨.outside, n, max m (n + Spelling.depthOfMembers members)⟩ := by
  match members with
  | [] =>
    rw [Spelling.depthOfMembers, Nat.add_zero, Nat.max_eq_left h]
    rfl
  | ⟨before, name, afterName, beforeValue, value, after⟩ :: members =>
    have hcolon : next ⟨.outside, n, m⟩ ':' = ⟨.outside, n, m⟩ := rfl
    rw [Spelling.textOfMembers, through_append, through_comma, through_append, through_blanks,
      through_append, through_quoted, through_append, through_blanks, through_cons, hcolon,
      through_append, through_blanks, through_append, through_spelling value h, through_append,
      through_blanks, through_members false members (Nat.le_trans h (Nat.le_max_left ..)),
      Spelling.depthOfMembers, Nat.max_assoc, Nat.add_max_add_left]

end

end Count

/-- The text of a value opens as many brackets at once as the value is nested deep. -/
theorem nesting_text {json : Json} (h : json.Counted) : nesting json.text = json.depth := by
  obtain ⟨s, htext, -, hdepth⟩ := exists_spelling json h
  unfold nesting
  rw [Json.text, String.toList_ofList, ← htext, Count.through_spelling s (Nat.le_refl 0)]
  simp only [Nat.zero_add, Nat.zero_max, hdepth]

/-- Brackets in a string do not count, and an escaped quote does not end the string. -/
example : nesting "[[], \"[[\\\"[\"]" = 2 := by decide

end StyleScope.Json
