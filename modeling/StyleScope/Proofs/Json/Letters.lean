import StyleScope.Proofs.Json.Gives

/-!
# Reading strings

A string is read as the characters that its letters stand for.
-/

namespace StyleScope.Json

variable {α : Type} {plain : Char → α} {control : List Char → Outcome (List α)}

/-! ## One character -/

theorem charsWith_quote (escape : Reader α) (rest : List Char) :
    charsWith escape plain control ('"' :: rest) = .read [] rest := by
  rw [charsWith]

theorem charsWith_plain (escape : Reader α) {c : Char} (h : c ≠ '"' ∧ c ≠ '\\' ∧ ¬ c < ' ')
    (rest : List Char) :
    charsWith escape plain control (c :: rest) =
      (charsWith escape plain control rest).map (plain c :: ·) := by
  obtain ⟨hquote, hbackslash, hcontrol⟩ := h
  rw [charsWith, if_neg hcontrol]
  · exact hquote
  · exact hbackslash

theorem charsWith_escape (escape : Reader α) (text : List Char) :
    charsWith escape plain control ('\\' :: text) =
      (escape.run text).bind fun c rest => (charsWith escape plain control rest).map (c :: ·) := by
  rw [charsWith]
  split <;> rename_i h <;> rw [h] <;> rfl

theorem ne_of_shortEscape {c meant : Char} (h : shortEscape? c = some meant) : c ≠ 'u' := by
  rintro rfl
  simp [shortEscape?] at h

theorem escape_short {c meant : Char} (h : shortEscape? c = some meant) (rest : List Char) :
    escape.run (c :: rest) = .read meant rest := by
  have hu := ne_of_shortEscape h
  change escapeWith id numberedChar (c :: rest) = _
  rw [escapeWith, h]
  · rfl
  · exact hu

theorem hexWord_eq {a b c d : Char} {n : Nat} (h : hexValue? a b c d = some n) (rest : List Char) :
    hexWord (a :: b :: c :: d :: rest) = .read n rest := by
  unfold hexWord
  simp only [h]

/-! ## Numbered characters -/

section

variable {a b c d : Char} {n : Nat} (h : hexValue? a b c d = some n)

include h

theorem escape_numbered (rest : List Char) :
    escape.run ('u' :: a :: b :: c :: d :: rest) =
      if isLowSurrogate n then Malformed.loneSurrogate.here rest
      else if isHighSurrogate n then lowSurrogate n rest
      else .read (Char.ofNat n) rest := by
  simp only [escape, escapeWith, numberedChar, hexWord_eq h, Outcome.bind_read]

theorem lowSurrogate_numbered (high : Nat) (rest : List Char) :
    lowSurrogate high ('\\' :: 'u' :: a :: b :: c :: d :: rest) =
      if isLowSurrogate n then .read (pairedChar high n) rest
      else Malformed.loneSurrogate.here rest := by
  simp only [lowSurrogate, hexWord_eq h, Outcome.bind_read]

end

theorem lowSurrogate_gives_none (high : Nat) {text : List Char} (rest : List Char)
    (h : ∀ t, text ≠ '\\' :: 'u' :: t) : (lowSurrogate high text).Gives none rest := by
  unfold lowSurrogate
  split
  · exact absurd rfl (h _)
  all_goals exact Outcome.gives_fault _ _ rest

theorem text_ne_numbered (letters : List Letter) (rest : List Char)
    (h : ∀ a b c d n hn tail, letters ≠ .numbered a b c d n hn :: tail) (t : List Char) :
    letters.flatMap Letter.text ++ '"' :: rest ≠ '\\' :: 'u' :: t := by
  match letters with
  | [] => simp
  | .plain c hc :: tail =>
    simp only [List.flatMap_cons, Letter.text, List.cons_append, ne_eq, List.cons.injEq]
    rintro ⟨heq, -⟩
    exact hc.2.1 heq
  | .short c meant hc :: tail =>
    simp only [List.flatMap_cons, Letter.text, List.cons_append, ne_eq, List.cons.injEq]
    rintro ⟨-, heq, -⟩
    exact ne_of_shortEscape hc heq
  | .numbered a b c d n hn :: tail => exact absurd rfl (h a b c d n hn tail)

/-! ## Whole strings -/

theorem charsWith_letters (control : List Char → Outcome (List Char)) (letters : List Letter)
    (rest : List Char) :
    (charsWith escape id control (letters.flatMap Letter.text ++ '"' :: rest)).Gives
      (Letter.values? letters) rest := by
  fun_induction Letter.values? letters with
  | case1 =>
    rw [List.flatMap_nil, List.nil_append, charsWith_quote]
    exact Outcome.gives_read [] rest
  | case2 c h letters ih =>
    rw [List.flatMap_cons, List.append_assoc, Letter.text, List.singleton_append,
      charsWith_plain _ h]
    exact ih.map _
  | case3 c meant h letters ih =>
    simp only [List.flatMap_cons, Letter.text, List.cons_append, List.nil_append]
    rw [charsWith_escape, escape_short h]
    exact ih.map _
  | case4 a b c d n h letters hlow =>
    simp only [List.flatMap_cons, Letter.text, List.cons_append, List.nil_append]
    rw [charsWith_escape, escape_numbered h, if_pos hlow]
    exact Outcome.gives_fault _ _ rest
  | case5 a b c d n h hlow hhigh a' b' c' d' low h' letters hlow' ih =>
    simp only [List.flatMap_cons, Letter.text, List.cons_append, List.nil_append]
    rw [charsWith_escape, escape_numbered h, if_neg hlow, if_pos hhigh, lowSurrogate_numbered h',
      if_pos hlow']
    exact ih.map _
  | case6 a b c d n h hlow hhigh a' b' c' d' low h' letters hlow' =>
    simp only [List.flatMap_cons, Letter.text, List.cons_append, List.nil_append]
    rw [charsWith_escape, escape_numbered h, if_neg hlow, if_pos hhigh, lowSurrogate_numbered h',
      if_neg hlow']
    exact Outcome.gives_fault _ _ rest
  | case7 a b c d n h letters hlow hhigh hother =>
    simp only [List.flatMap_cons, Letter.text, List.cons_append, List.nil_append]
    rw [charsWith_escape, escape_numbered h, if_neg hlow, if_pos hhigh]
    -- No second surrogate comes, so it does not matter what would be done with one.
    have hnone := lowSurrogate_gives_none n rest (text_ne_numbered letters rest hother)
    apply hnone.bind (f := fun _ => none)
    intro c hc
    cases hc
  | case8 a b c d n h letters hlow hhigh ih =>
    simp only [List.flatMap_cons, Letter.text, List.cons_append, List.nil_append]
    rw [charsWith_escape, escape_numbered h, if_neg hlow, if_neg hhigh]
    exact ih.map _

theorem quotedText_letters (letters : List Letter) (rest : List Char) :
    (quotedText.run (letters.flatMap Letter.text ++ '"' :: rest)).Gives
      (Letter.string? letters) rest :=
  (charsWith_letters _ letters rest).map String.ofList

end StyleScope.Json
