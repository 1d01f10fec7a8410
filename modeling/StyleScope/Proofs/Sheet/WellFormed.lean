import StyleScope.Proofs.Json.WellFormed
import StyleScope.Proofs.Sheet.Acceptance

/-!
# Only texts that are spelled are read as sheets

The parts of a sheet are read as values are, or ignored, and so a text that is read has a spelling.
-/

namespace StyleScope

open Json (Outcome Reader Spelling Blanks HasItems HasContent)

theorem Json.readsValues_of_decoded {α : Type} {reader : Reader α} {f : Json → Option α}
    {levels : Nat}
    (h : ∀ text, ((value levels).run text).read?.bind (decoded f) = (reader.run text).read?) :
    reader.ReadsValues := by
  intro text value rest hrun
  have hread : (reader.run text).read? = some (value, rest) := Outcome.read?_eq_some_iff.mpr hrun
  rw [← h] at hread
  obtain ⟨⟨json, left⟩, hjson, hdecoded⟩ := Option.bind_eq_some_iff.mp hread
  obtain ⟨_, -, heq⟩ := Option.map_eq_some_iff.mp hdecoded
  cases heq
  exact value_readsValues levels (Outcome.read?_eq_some_iff.mp hjson)

namespace Sheet

theorem string_readsValues : Reader.string.ReadsValues :=
  Json.readsValues_of_decoded (string_decoded 0)

theorem nodeList_readsValues (levels : Nat) : (nodeList levels).ReadsValues :=
  Json.readsValues_of_decoded (nodeList_decoded levels)

theorem hasContent_of_member {levels : Nat} {draft draft' : Draft} {name : String}
    {text rest : List Char} (h : (member levels draft name).run text = .read draft' rest) :
    HasContent text rest := by
  unfold member at h
  split at h
  · split at h
    · cases h
    · exact Json.hasContent_of_bind (string_readsValues.map _) h
  · split at h
    · split at h
      · cases h
      · exact Json.hasContent_of_bind ((nodeList_readsValues levels).map _) h
    · exact Json.hasContent_of_bind (Json.ignored_readsValues.map _) h

theorem hasItems_of_draftOfList {levels : Nat} {draft : Draft} {text left rest : List Char}
    (h : draftOfList levels text = .read draft left) (hclose : Json.closeList left = ⟨none, rest⟩) :
    HasItems true text (']' :: rest) := by
  have hend : ∀ {first : Bool} {text : List Char}, Json.nextItem first text = .read false left →
      HasItems first text (']' :: rest) := by
    intro first text hnext
    obtain ⟨hitems, left, rfl⟩ := Json.hasItems_of_end hnext
    rw [Json.closeList_bracket] at hclose
    cases hclose
    exact hitems
  obtain ⟨_ | _, left₁, hfirst, hmore⟩ := Outcome.eq_read_of_bind h
  · cases hmore
    exact hend hfirst
  · obtain ⟨sourceName, left₂, hsource, hrest⟩ := Outcome.eq_read_of_bind hmore
    refine .cons hfirst (string_readsValues hsource) ?_
    obtain ⟨_ | _, left₃, hsecond, hmore⟩ := Outcome.eq_read_of_bind hrest
    · cases hmore
      exact hend hsecond
    · obtain ⟨nodes, hnodes, -⟩ := Outcome.eq_read_of_map hmore
      obtain ⟨after, rfl⟩ := Json.exists_of_closeList hclose
      exact .cons hsecond (nodeList_readsValues levels hnodes) ⟨after, [], rfl⟩

theorem reader_readsValues : ∀ levels, (reader levels).ReadsValues := by
  apply Json.eitherBracket_readsValues
  · intro levels text sheet left rest h hclose
    obtain ⟨draft, hdraft, -⟩ := Outcome.eq_read_of_check h
    exact Json.hasValue_of_hasItems (hasItems_of_draftOfList hdraft hclose)
  · intro levels text sheet left rest h hclose
    obtain ⟨draft, hdraft, -⟩ := Outcome.eq_read_of_check h
    exact Json.hasValue_of_members (fun _ _ _ _ _ => hasContent_of_member) hdraft hclose

theorem exists_spelling {text : String} {sheet : Sheet} (h : parse text = .ok sheet) :
    ∃ (before : Blanks) (s : Spelling) (after : Blanks),
      text = Spelling.document before s after := by
  unfold parse read at h
  cases hread : Json.readDocument (reader Json.nestingLimit) text with
  | ok sheet' => exact Json.exists_document (reader_readsValues _) hread
  | error complaint =>
    rw [hread] at h
    cases h

end Sheet

end StyleScope
