import StyleScope.Json.Reader

/-!
# Strings in JSON

A string is read from just after its opening quote. Characters beyond the first 65536 may be written
as a pair of surrogates.
-/

namespace StyleScope.Json

variable {α : Type}

/-- The character that a backslash and one letter stand for. -/
def shortEscape? : Char → Option Char
  | '"' => some '"'
  | '\\' => some '\\'
  | '/' => some '/'
  | 'b' => some '\x08'
  | 'f' => some '\x0c'
  | 'n' => some '\n'
  | 'r' => some '\r'
  | 't' => some '\t'
  | _ => none

def hexDigit? (c : Char) : Option Nat :=
  if '0' ≤ c ∧ c ≤ '9' then some (c.toNat - '0'.toNat)
  else if 'a' ≤ c ∧ c ≤ 'f' then some (c.toNat - 'a'.toNat + 10)
  else if 'A' ≤ c ∧ c ≤ 'F' then some (c.toNat - 'A'.toNat + 10)
  else none

/-- The number that four hexadecimal digits spell. -/
def hexValue? (a b c d : Char) : Option Nat := do
  return (((← hexDigit? a) * 16 + (← hexDigit? b)) * 16 + (← hexDigit? c)) * 16 + (← hexDigit? d)

/-- Four bytes that are not four hexadecimal digits, or the last ones of the text. -/
def notHex (text : List Char) : Outcome α :=
  if Text.byteCount text < 4 then .fault (.malformed .endInString) 0
  else .fault (.malformed .invalidEscape) (Text.byteCount text - 4)

def hexWord : List Char → Outcome Nat
  | a :: b :: c :: d :: rest =>
    match hexValue? a b c d with
    | some n => .read n rest
    | none => notHex (a :: b :: c :: d :: rest)
  | text => notHex text

def isLowSurrogate (n : Nat) : Bool := 0xDC00 ≤ n && n ≤ 0xDFFF

def isHighSurrogate (n : Nat) : Bool := 0xD800 ≤ n && n ≤ 0xDBFF

/-- The character that two surrogates stand for. -/
def pairedChar (high low : Nat) : Char :=
  Char.ofNat ((high - 0xD800) * 0x400 + (low - 0xDC00) + 0x10000)

def lowSurrogate (high : Nat) : List Char → Outcome Char
  | '\\' :: 'u' :: rest =>
    (hexWord rest).bind fun low rest =>
      if isLowSurrogate low then .read (pairedChar high low) rest
      else Malformed.loneSurrogate.here rest
  | '\\' :: [] => Malformed.endInString.here []
  | '\\' :: rest => Malformed.unfinishedPair.onNext rest
  | [] => Malformed.endInString.here []
  | text => Malformed.unfinishedPair.onNext text

/-- The character that is spelled by its number, from after the `u`. -/
def numberedChar (text : List Char) : Outcome Char :=
  (hexWord text).bind fun n rest =>
    if isLowSurrogate n then Malformed.loneSurrogate.here rest
    else if isHighSurrogate n then lowSurrogate n rest
    else .read (Char.ofNat n) rest

/-- What follows a backslash; `numbered` reads what follows a `u`. -/
def escapeWith (short : Char → α) (numbered : List Char → Outcome α) : List Char → Outcome α
  | [] => Malformed.endInString.here []
  | 'u' :: rest => numbered rest
  | c :: rest =>
    match shortEscape? c with
    | some c => .read (short c) rest
    | none => Malformed.invalidEscape.onNext (c :: rest)

theorem below_notHex (text : List Char) (n : Nat) : (notHex text : Outcome α).Below n := by
  unfold notHex
  split <;> exact Outcome.below_fault ..

theorem below_hexWord (text : List Char) : (hexWord text).Below text.length := by
  unfold hexWord
  split
  · split
    · exact Outcome.below_read (by simp; omega)
    · exact below_notHex ..
  · exact below_notHex ..

theorem below_lowSurrogate (high : Nat) (text : List Char) :
    (lowSurrogate high text).Below text.length := by
  unfold lowSurrogate
  split
  · rename_i rest
    refine (below_hexWord rest).bind fun low rest' h => ?_
    split
    · exact Outcome.below_read (by simp; omega)
    · exact Outcome.below_here ..
  all_goals first | exact Outcome.below_here .. | exact Outcome.below_onNext ..

theorem below_numberedChar (text : List Char) : (numberedChar text).Below text.length := by
  refine (below_hexWord text).bind fun n rest h => ?_
  split
  · exact Outcome.below_here ..
  · split
    · exact (below_lowSurrogate n rest).mono (Nat.le_of_lt h)
    · exact Outcome.below_read h

theorem below_escapeWith (short : Char → α) {numbered : List Char → Outcome α}
    (h : ∀ text, (numbered text).Below text.length) (text : List Char) :
    (escapeWith short numbered text).Below text.length := by
  unfold escapeWith
  split
  · exact Outcome.below_here ..
  · exact (h _).mono (by simp)
  · split
    · exact Outcome.below_read (by simp)
    · exact Outcome.below_onNext ..

/-- An escape, from after its backslash. -/
def escape : Reader Char := ⟨escapeWith id numberedChar, below_escapeWith _ below_numberedChar⟩

/--
The characters of a string up to its closing quote, each as `plain` or `escape` gives it; `control`
is the complaint about a control character.
-/
def charsWith (escape : Reader α) (plain : Char → α) (control : List Char → Outcome (List α))
    (text : List Char) : Outcome (List α) :=
  match text with
  | [] => Malformed.endInString.here []
  | '"' :: rest => .read [] rest
  | '\\' :: rest =>
    match _h : escape.run rest with
    | .read c rest' => (charsWith escape plain control rest').map (c :: ·)
    | .misfit what rest => .misfit what rest
    | .fault what unread => .fault what unread
  | c :: rest =>
    if c < ' ' then control (c :: rest)
    else (charsWith escape plain control rest).map (plain c :: ·)
termination_by text.length
decreasing_by
  · have := escape.shrinks rest ‹_›
    simp only [List.length_cons]
    omega
  · simp

theorem below_charsWith (escape : Reader α) (plain : Char → α)
    {control : List Char → Outcome (List α)} (h : ∀ text n, (control text).Below n)
    (text : List Char) : (charsWith escape plain control text).Below text.length := by
  fun_induction charsWith escape plain control text with
  | case1 => exact Outcome.below_here ..
  | case2 rest => exact Outcome.below_read (by simp)
  | case3 rest c rest' hrun ih =>
    have := escape.shrinks rest hrun
    exact (ih.map _).mono (by simp only [List.length_cons]; omega)
  | case4 => exact Outcome.below_misfit ..
  | case5 => exact Outcome.below_fault ..
  | case6 c rest => exact h ..
  | case7 c rest _ _ _ ih => exact (ih.map _).mono (by simp)

/-- The text of a string, from after its opening quote. -/
def quotedText : Reader String where
  run text := (charsWith escape id Malformed.controlCharacter.onNext text).map String.ofList
  shrinks text := (below_charsWith escape id (fun _ _ => Outcome.below_onNext ..) text).map _

end StyleScope.Json
