import StyleScope.Json.Direct
import StyleScope.Json.Reader
import StyleScope.Proofs.Json.Success
import StyleScope.Proofs.Json.WellFormed
import StyleScope.Proofs.Json.Writing

/-!
# Whole texts, their spelling and their value

What a text is read as is what its value is read as, and only blanks may stand behind that. So a
text that is read is spelled, and what is written of a value is read as that value.
-/

namespace StyleScope.Json

variable {α : Type} {reader : Reader α}

theorem skipBlank_text (blanks : Blanks) : skipBlank blanks.text = [] := by
  rw [← List.append_nil blanks.text, skipBlank_blanks]
  rfl

theorem readDocument_toOption {text : String} {value? : Option α} (after : Blanks)
    (h : (reader.run text.toList).Gives value? after.text) :
    (readDocument reader text).toOption = value? := by
  unfold readDocument
  rcases value? with _ | value
  · cases hrun : reader.run text.toList with
    | read value rest => exact absurd hrun (h value rest)
    | misfit what rest => rfl
    | fault what unread => rfl
  · rw [show reader.run text.toList = .read value after.text from h, Outcome.bind_read, atEnd,
      skipBlank_text]
    rfl

theorem exists_document (hvalues : reader.ReadsValues) {text : String} {value : α}
    (h : readDocument reader text = .ok value) :
    ∃ (before : Blanks) (s : Spelling) (after : Blanks),
      text = Spelling.document before s after := by
  unfold readDocument at h
  rcases hrun : (reader.run text.toList).bind atEnd with
    ⟨value', left⟩ | ⟨what, left⟩ | ⟨what, unread⟩
  · obtain ⟨_, rest, hread, hend⟩ := Outcome.eq_read_of_bind hrun
    obtain ⟨before, s, htext⟩ := hvalues hread
    obtain ⟨after, hafter⟩ := exists_blanks rest
    unfold atEnd at hend
    split at hend
    · rename_i heq
      rw [heq, List.append_nil] at hafter
      refine ⟨before, s, after, ?_⟩
      rw [Spelling.document, ← hafter, ← htext, String.ofList_toList]
    · cases hend
  · rw [hrun] at h
    cases h
  · rw [hrun] at h
    cases h

/-! ## Records -/

section

variable {wanted : Wanted} {inside : (levels : Nat) → Inside α}

theorem eitherBracket_scalar (levels : Nat) (before : Blanks) {s : Spelling} (h : s.depth = 0)
    (rest : List Char) :
    ((eitherBracket wanted inside levels).run (before.text ++ (s.text ++ rest))).Gives none rest := by
  obtain ⟨c, text, heq, hblank, -, hbracket⟩ := text_cons s
  obtain ⟨hlist, hobject⟩ := hbracket h
  have hrun : (eitherBracket wanted inside levels).run (before.text ++ (s.text ++ rest)) =
      notThis wanted (c :: (text ++ rest)) := by
    rw [heq, List.cons_append]
    cases levels with
    | zero =>
      change unbracketed _ _ = _
      unfold unbracketed
      rw [skipBlank_blanks]
      exact unbracketed_scalar hblank hlist hobject ..
    | succ levels =>
      change bracketed _ _ _ _ = _
      rw [bracketed_blanks]
      exact bracketed_scalar hblank hlist hobject ..
  rw [hrun, Outcome.gives_iff]
  exact notThis_read? ..

theorem eitherBracket_readsValues
    (hlist : ∀ levels text value left rest, (inside levels).onList text = .read value left →
      closeList left = ⟨none, rest⟩ → HasValue ('[' :: text) rest)
    (hobject : ∀ levels text value left rest, (inside levels).onObject text = .read value left →
      closeObject left = ⟨none, rest⟩ → HasValue ('{' :: text) rest) (levels : Nat) :
    (eitherBracket wanted inside levels).ReadsValues := by
  intro text value rest h
  have hnot : ∀ text : List Char, notThis wanted text ≠ .read value rest := by
    intro text heq
    have hread := notThis_read? (α := α) wanted text
    rw [heq] at hread
    cases hread
  apply hasValue_of_skipBlank
  cases levels with
  | zero =>
    change unbracketed _ text = _ at h
    unfold unbracketed at h
    split at h
    · cases h
    · cases h
    · exact absurd h (hnot _)
  | succ levels =>
    change bracketed _ _ _ text = _ at h
    unfold bracketed at h
    split at h
    · rename_i heq
      obtain ⟨left, hread, hclose⟩ := Outcome.eq_read_of_closedBy h
      rw [heq]
      exact hlist levels _ _ _ _ hread hclose
    · rename_i heq
      obtain ⟨left, hread, hclose⟩ := Outcome.eq_read_of_closedBy h
      rw [heq]
      exact hobject levels _ _ _ _ hread hclose
    · exact absurd h (hnot _)

end

/-! ## Values -/

theorem readDocument_document (levels : Nat) (before after : Blanks) (s : Spelling) :
    (readDocument (value levels) (Spelling.document before s after)).toOption =
      s.within? levels := by
  apply readDocument_toOption after
  rw [Spelling.document, String.toList_ofList, value_run_blanks]
  apply value_gives levels s
  have hstops : Stops [] := nofun
  rw [← List.append_nil after.text]
  exact stops_blanks after hstops

/-- A text that is read as a value is spelled, and however it is spelled, it spells that value. -/
theorem spells_of_readDocument {levels : Nat} {text : String} {json : Json}
    (h : readDocument (value levels) text = .ok json) :
    (∃ before s after, text = Spelling.document before s after) ∧
      ∀ before s after, text = Spelling.document before s after → s.value? = some json := by
  refine ⟨exists_document (value_readsValues levels) h, ?_⟩
  rintro before s after rfl
  have hread := readDocument_document levels before after s
  rw [h] at hread
  unfold Spelling.within? at hread
  split at hread
  · exact hread.symm
  · cases hread

/-- What is written of a value is read as that value. -/
theorem readDocument_text {json : Json} (h : json.Counted) {levels : Nat}
    (hdepth : json.depth ≤ levels) : readDocument (value levels) json.text = .ok json := by
  obtain ⟨s, htext, hvalue, hdepths⟩ := exists_spelling json h
  have hdocument : json.text = Spelling.document .none s .none := by
    simp only [Json.text, Spelling.document, Blanks.none, List.nil_append, List.append_nil, htext]
  apply toOption_eq_some
  rw [hdocument, readDocument_document, Spelling.within?, hdepths, if_pos hdepth, hvalue]

end StyleScope.Json
