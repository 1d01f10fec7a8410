import StyleScope.Proofs.Json.Levels
import StyleScope.Proofs.Sheet.Outermost

/-!
# How many brackets of a sheet may be open at once

A sheet that may open fewer brackets is read the same, or as nested too deep. Its nodes are those
that JSON values give which open as many brackets as are left inside the list of nodes.
-/

namespace StyleScope

open Json (Outcome Reader)

/-! ## What more levels change -/

namespace Node

theorem upTo_member {value value' : Reader Json} (h : value.UpTo value') (draft : Draft)
    (name : String) : (member value draft name).UpTo (member value' draft name) := by
  unfold member
  split
  · exact .refl _
  · apply (Reader.UpTo.refl _).bind
    intro _
    exact h.map _

theorem upTo_bodyOfObject {value value' : Reader Json} (h : value.UpTo value')
    (text : List Char) : (bodyOfObject value text).UpTo (bodyOfObject value' text) := by
  apply Outcome.UpTo.check
  exact Json.upTo_members (upTo_member h) true {} text

theorem upTo_bodyOfList {value value' : Reader Json} (h : value.UpTo value') (text : List Char) :
    (bodyOfList value text).UpTo (bodyOfList value' text) := by
  apply (Outcome.UpTo.refl _).bind
  intro more rest _
  cases more with
  | false => exact .refl _
  | true =>
    apply (Outcome.UpTo.refl _).bind
    intro kind rest _
    exact (Json.upTo_listItems h false rest).map _

theorem upTo_body (levels : Nat) : (body levels).UpTo (body (levels + 1)) := by
  apply Json.upTo_eitherBracket
  · intro levels
    exact upTo_bodyOfList (Json.upTo_value levels)
  · intro levels
    exact upTo_bodyOfObject (Json.upTo_value levels)

theorem upTo_reader (levels : Nat) : (reader levels).UpTo (reader (levels + 1)) := by
  intro text
  exact (upTo_body levels text).check _

end Node

namespace Sheet

theorem upTo_nodeList (levels : Nat) : (nodeList levels).UpTo (nodeList (levels + 1)) :=
  Json.upTo_list Node.upTo_reader levels

theorem upTo_member (levels : Nat) (draft : Draft) (name : String) :
    (member levels draft name).UpTo (member (levels + 1) draft name) := by
  unfold member
  split
  · exact .refl _
  · split
    · split
      · exact .refl _
      · apply (Reader.UpTo.refl _).bind
        intro _
        exact (upTo_nodeList levels).map _
    · exact .refl _

theorem upTo_onObject (levels : Nat) (text : List Char) :
    (onObject levels text).UpTo (onObject (levels + 1) text) := by
  apply Outcome.UpTo.check
  exact Json.upTo_members (upTo_member levels) true {} text

theorem upTo_draftOfList (levels : Nat) (text : List Char) :
    (draftOfList levels text).UpTo (draftOfList (levels + 1) text) := by
  apply (Outcome.UpTo.refl _).bind
  intro more rest _
  cases more with
  | false => exact .refl _
  | true =>
    apply (Outcome.UpTo.refl _).bind
    intro sourceName rest _
    apply (Outcome.UpTo.refl _).bind
    intro more rest _
    cases more with
    | false => exact .refl _
    | true => exact (upTo_nodeList levels rest).map _

theorem upTo_reader_succ (levels : Nat) : (reader levels).UpTo (reader (levels + 1)) := by
  apply Json.upTo_eitherBracket
  · intro levels text
    exact (upTo_draftOfList levels text).check _
  · exact upTo_onObject

theorem upTo_reader {levels levels' : Nat} (h : levels ≤ levels') :
    (reader levels).UpTo (reader levels') := by
  induction h with
  | refl => exact .refl _
  | step _ ih =>
    intro text
    exact (ih text).trans (upTo_reader_succ _ text)

/-! ## Where nodes come from -/

/-- Every node comes from a JSON value that is not nested deeper than `depth`. -/
def FromJson (depth : Nat) (nodes : List Node) : Prop :=
  ∀ node ∈ nodes, ∃ json : Json, json.depth ≤ depth ∧ Node.ofJson json = .ok node

theorem fromJson_of_reader {levels : Nat} {text rest : List Char} {node : Node}
    (h : (Node.reader levels).run text = .read node rest) :
    ∃ json : Json, json.depth ≤ levels ∧ Node.ofJson json = .ok node := by
  rw [← Outcome.read?_eq_some_iff, ← Node.reader_decoded] at h
  obtain ⟨⟨json, left⟩, hvalue, hnode⟩ := Option.bind_eq_some_iff.mp h
  obtain ⟨node', houtermost, heq⟩ := Option.map_eq_some_iff.mp hnode
  cases heq
  refine ⟨json, Json.depth_le_of_value (Outcome.read?_eq_some_iff.mp hvalue), ?_⟩
  unfold Node.ofOutermost? at houtermost
  split at houtermost
  · exact Json.toOption_eq_some houtermost
  · cases houtermost

theorem fromJson_of_nodeList {levels : Nat} {text rest : List Char} {nodes : List Node}
    (h : (nodeList (levels + 1)).run text = .read nodes rest) : FromJson levels nodes := by
  unfold nodeList Reader.list at h
  simp only at h
  split at h
  · cases h
  · rename_i heq
    cases heq
    obtain ⟨left, hitems, -⟩ := Outcome.eq_read_of_closedBy h
    exact Json.items_forall (fun _ _ _ => fromJson_of_reader) hitems
  · have hnone := Json.notThis_read? (α := List Node) .list (Json.skipBlank text)
    rw [h] at hnone
    cases hnone

def Draft.FromJson (depth : Nat) (draft : Draft) : Prop :=
  ∀ nodes, draft.nodes = some nodes → Sheet.FromJson depth nodes

theorem fromJson_of_finish {lack : Json.Mismatch} {draft : Draft} {sheet : Sheet} {depth : Nat}
    (h : draft.FromJson depth) (hfinish : draft.finish lack = .ok sheet) :
    FromJson depth sheet.nodes := by
  unfold Draft.finish at hfinish
  split at hfinish
  · cases hfinish
    exact h _ ‹_›
  · cases hfinish

theorem fromJson_of_member {levels : Nat} {draft draft' : Draft} {name : String}
    {text rest : List Char} (hdraft : draft.FromJson levels)
    (h : (member (levels + 1) draft name).run text = .read draft' rest) :
    draft'.FromJson levels := by
  unfold member at h
  split at h
  · split at h
    · cases h
    · obtain ⟨_, left, -, hstring⟩ := Outcome.eq_read_of_bind h
      obtain ⟨_, -, rfl⟩ := Outcome.eq_read_of_map hstring
      exact hdraft
  · split at h
    · split at h
      · cases h
      · obtain ⟨_, left, -, hnodes⟩ := Outcome.eq_read_of_bind h
        obtain ⟨nodes, hlist, rfl⟩ := Outcome.eq_read_of_map hnodes
        rintro _ ⟨⟩
        exact fromJson_of_nodeList hlist
    · obtain ⟨_, left, -, hignored⟩ := Outcome.eq_read_of_bind h
      obtain ⟨_, -, rfl⟩ := Outcome.eq_read_of_map hignored
      exact hdraft

theorem fromJson_of_draftOfList {levels : Nat} {text rest : List Char} {draft : Draft}
    (h : draftOfList (levels + 1) text = .read draft rest) : draft.FromJson levels := by
  obtain ⟨more, left, -, h⟩ := Outcome.eq_read_of_bind h
  split at h
  · obtain ⟨sourceName, left, -, h⟩ := Outcome.eq_read_of_bind h
    obtain ⟨more, left, -, h⟩ := Outcome.eq_read_of_bind h
    split at h
    · obtain ⟨nodes, hlist, rfl⟩ := Outcome.eq_read_of_map h
      rintro _ ⟨⟩
      exact fromJson_of_nodeList hlist
    · cases h
      intro nodes hnodes
      cases hnodes
  · cases h
    intro nodes hnodes
    cases hnodes

theorem fromJson_of_sheet {levels : Nat} {text rest : List Char} {sheet : Sheet}
    (h : (reader (levels + 2)).run text = .read sheet rest) : FromJson levels sheet.nodes := by
  unfold reader Json.eitherBracket Json.bracketed at h
  simp only at h
  split at h
  · obtain ⟨left, hlist, -⟩ := Outcome.eq_read_of_closedBy h
    obtain ⟨draft, hdraft, hfinish⟩ := Outcome.eq_read_of_check hlist
    exact fromJson_of_finish (fromJson_of_draftOfList hdraft) hfinish
  · obtain ⟨left, hobject, -⟩ := Outcome.eq_read_of_closedBy h
    obtain ⟨draft, hdraft, hfinish⟩ := Outcome.eq_read_of_check hobject
    have hempty : ({} : Draft).FromJson levels := by
      intro nodes hnodes
      cases hnodes
    have hfrom := Json.members_invariant (fun _ _ _ _ _ => fromJson_of_member) hempty hdraft
    exact fromJson_of_finish hfrom hfinish
  · have hnone := Json.notThis_read? (α := Sheet) (.record recordName) (Json.skipBlank text)
    rw [h] at hnone
    cases hnone

end Sheet

end StyleScope
