import StyleScope.Proofs.Json.Success
import StyleScope.Json.Direct
import StyleScope.Json.Nesting

/-!
# How many brackets may be open at once

A value that is read opens no more brackets at once than it may. A reader that may open fewer of
them reads the same, or it complains that something is nested too deep.
-/

namespace StyleScope.Json

variable {α β σ : Type}

/-! ## What is read -/

theorem items_forall {item : Reader α} {p : α → Prop}
    (h : ∀ text value rest, item.run text = .read value rest → p value) {first : Bool}
    {text rest : List Char} {values : List α} (hread : items item first text = .read values rest) :
    ∀ value ∈ values, p value := by
  fun_induction items item first text generalizing values with
  | case1 first text left hnext =>
    cases hread
    simp
  | case2 first text left hnext value left' hitem ih =>
    cases hrest : items item false left' with
    | read tail left'' =>
      rw [hrest] at hread
      cases hread
      intro value' hmem
      rcases List.mem_cons.mp hmem with rfl | hmem
      · exact h _ _ _ hitem
      · exact ih hrest value' hmem
    | misfit what left'' => simp [hrest, Outcome.map] at hread
    | fault what unread => simp [hrest, Outcome.map] at hread
  | case3 => cases hread
  | case4 => cases hread
  | case5 => cases hread
  | case6 => cases hread

theorem members_invariant {member : σ → String → Reader σ} {p : σ → Prop}
    (h : ∀ state name text state' rest, p state →
      (member state name).run text = .read state' rest → p state')
    {first : Bool} {state state' : σ} {text rest : List Char} (hstate : p state)
    (hread : members member first state text = .read state' rest) : p state' := by
  fun_induction members member first state text with
  | case1 first state text left hnext =>
    cases hread
    exact hstate
  | case2 first state text name left hnext next left' hmember ih =>
    apply ih
    · exact h _ _ _ _ _ hstate hmember
    · exact hread
  | case3 => cases hread
  | case4 => cases hread
  | case5 => cases hread
  | case6 => cases hread

theorem value_of_literal {json value : Json} {letters text rest : List Char}
    (h : literal json letters text = .read value rest) : value = json := by
  fun_induction literal json letters text with
  | case1 => cases h; rfl
  | case2 => cases h
  | case3 _ _ _ ih => exact ih h
  | case4 => cases h

theorem depth_of_scalar {text rest : List Char} {value : Json}
    (h : scalar text = .read value rest) : value.depth = 0 := by
  unfold scalar at h
  split at h
  · cases h
  · rw [value_of_literal h]; rfl
  · rw [value_of_literal h]; rfl
  · rw [value_of_literal h]; rfl
  · obtain ⟨s, -, rfl⟩ := Outcome.eq_read_of_map h
    rfl
  · obtain ⟨n, -, rfl⟩ := Outcome.eq_read_of_map h
    rfl
  · split at h
    · obtain ⟨n, -, rfl⟩ := Outcome.eq_read_of_map h
      rfl
    · cases h

theorem depthOfItems_le {items : List Json} {depth : Nat} (h : ∀ item ∈ items, item.depth ≤ depth) :
    depthOfItems items ≤ depth := by
  induction items with
  | nil => exact Nat.zero_le _
  | cons first rest ih =>
    obtain ⟨hfirst, hrest⟩ := List.forall_mem_cons.mp h
    rw [depthOfItems]
    apply Nat.max_le.mpr
    constructor
    · exact hfirst
    · exact ih hrest

theorem depth_le_of_value {levels : Nat} {text rest : List Char} {json : Json}
    (h : (value levels).run text = .read json rest) : json.depth ≤ levels := by
  induction levels generalizing text rest json with
  | zero =>
    simp only [value, unbracketed] at h
    split at h
    · cases h
    · cases h
    · exact Nat.le_of_eq (depth_of_scalar h)
  | succ levels ih =>
    simp only [value, nested, bracketed] at h
    split at h
    · obtain ⟨left, hinside, -⟩ := Outcome.eq_read_of_closedBy h
      obtain ⟨jsons, hitems, rfl⟩ := Outcome.eq_read_of_map hinside
      rw [depth]
      exact Nat.succ_le_succ (depthOfItems_le (items_forall (fun _ _ _ => ih) hitems))
    · obtain ⟨left, hinside, -⟩ := Outcome.eq_read_of_closedBy h
      obtain ⟨earlier, hmembers, rfl⟩ := Outcome.eq_read_of_map hinside
      -- No member that was read so far is nested deeper than one level less.
      have hdepth : ∀ m ∈ earlier, m.2.depth ≤ levels := by
        apply members_invariant (p := fun earlier => ∀ m ∈ earlier, m.2.depth ≤ levels) _ _ hmembers
        · intro earlier name text later rest hstate hmember
          obtain ⟨_, _, -, hvalue⟩ := Outcome.eq_read_of_bind hmember
          obtain ⟨json, hjson, rfl⟩ := Outcome.eq_read_of_map hvalue
          exact List.forall_mem_cons.mpr ⟨ih hjson, hstate⟩
        · simp
      rw [depth]
      apply Nat.succ_le_succ
      apply depthOfMembers_le
      intro m hm
      exact hdepth m (List.mem_reverse.mp hm)
    · rw [depth_of_scalar h]
      exact Nat.zero_le _

/-! ## What more levels change -/

namespace Outcome

/-- The one is the other, or the complaint that something is nested too deep. -/
def UpTo (o o' : Outcome α) : Prop :=
  o = o' ∨ ∃ unread, o = .fault (.malformed .nestedTooDeep) unread

theorem UpTo.refl (o : Outcome α) : o.UpTo o := .inl rfl

theorem upTo_nestedTooDeep (text : List Char) (o : Outcome α) :
    (Malformed.nestedTooDeep.onNext text).UpTo o := .inr ⟨_, rfl⟩

theorem UpTo.trans {o o' o'' : Outcome α} (h : o.UpTo o') (h' : o'.UpTo o'') : o.UpTo o'' := by
  rcases h with rfl | h
  · exact h'
  · exact .inr h

theorem UpTo.bind {o o' : Outcome α} {next next' : α → List Char → Outcome β} (h : o.UpTo o')
    (hnext : ∀ value rest, o = .read value rest → (next value rest).UpTo (next' value rest)) :
    (o.bind next).UpTo (o'.bind next') := by
  rcases h with rfl | ⟨unread, rfl⟩
  · cases o with
    | read value rest => exact hnext value rest rfl
    | misfit what rest => exact .refl _
    | fault what unread => exact .refl _
  · exact .inr ⟨unread, rfl⟩

theorem UpTo.map {o o' : Outcome α} (f : α → β) (h : o.UpTo o') : (o.map f).UpTo (o'.map f) := by
  apply h.bind
  intro value rest _
  exact .refl _

theorem UpTo.check {o o' : Outcome α} (f : α → Except Mismatch β) (h : o.UpTo o') :
    (o.check f).UpTo (o'.check f) := by
  apply h.bind
  intro value rest _
  exact .refl _

theorem UpTo.closedBy {o o' : Outcome α} (close : List Char → Closing) (h : o.UpTo o') :
    (o.closedBy close).UpTo (o'.closedBy close) := by
  rcases h with rfl | ⟨unread, rfl⟩
  · exact .refl _
  · exact .inr ⟨unread, rfl⟩

end Outcome

/-- One reader reads what the other one reads, or it complains that something is nested too deep. -/
def Reader.UpTo (r r' : Reader α) : Prop := ∀ text, (r.run text).UpTo (r'.run text)

theorem Reader.UpTo.refl (r : Reader α) : r.UpTo r := fun _ => .refl _

theorem Reader.UpTo.bind {r r' : Reader α} {next next' : α → Reader β} (h : r.UpTo r')
    (hnext : ∀ value, (next value).UpTo (next' value)) : (r.bind next).UpTo (r'.bind next') := by
  intro text
  apply (h text).bind
  intro value rest _
  exact hnext value rest

theorem Reader.UpTo.map {r r' : Reader α} (f : α → β) (h : r.UpTo r') :
    (r.map f).UpTo (r'.map f) :=
  fun text => (h text).map f

theorem upTo_items {item item' : Reader α} (h : item.UpTo item') (first : Bool)
    (text : List Char) : (items item first text).UpTo (items item' first text) := by
  induction hn : text.length using Nat.strongRecOn generalizing first text with
  | ind n ih =>
    subst hn
    rw [items_eq, items_eq]
    apply (Outcome.UpTo.refl _).bind
    intro more rest hnext
    have hlt := below_nextItem first text hnext
    cases more with
    | false => exact .refl _
    | true =>
      apply (h rest).bind
      intro value rest' hitem
      have hlt' := item.shrinks rest hitem
      apply Outcome.UpTo.map
      exact ih rest'.length (by omega) false rest' rfl

theorem upTo_members {member member' : σ → String → Reader σ}
    (h : ∀ state name, (member state name).UpTo (member' state name)) (first : Bool) (state : σ)
    (text : List Char) :
    (members member first state text).UpTo (members member' first state text) := by
  induction hn : text.length using Nat.strongRecOn generalizing first state text with
  | ind n ih =>
    subst hn
    rw [members_eq, members_eq]
    apply (Outcome.UpTo.refl _).bind
    intro name? rest hnext
    have hlt := below_nextName first text hnext
    rcases name? with _ | name
    · exact .refl _
    · apply (h state name rest).bind
      intro state rest' hmember
      have hlt' := (member _ name).shrinks rest hmember
      exact ih rest'.length (by omega) false state rest' rfl

theorem upTo_bracketed {onList onList' onObject onObject' : List Char → Outcome α}
    (hlist : ∀ text, (onList text).UpTo (onList' text))
    (hobject : ∀ text, (onObject text).UpTo (onObject' text))
    (otherwise : List Char → Outcome α) (text : List Char) :
    (bracketed onList onObject otherwise text).UpTo
      (bracketed onList' onObject' otherwise text) := by
  unfold bracketed
  split
  · exact (hlist _).closedBy _
  · exact (hobject _).closedBy _
  · exact .refl _

theorem upTo_unbracketed (onList onObject otherwise : List Char → Outcome α) (text : List Char) :
    (unbracketed otherwise text).UpTo (bracketed onList onObject otherwise text) := by
  unfold unbracketed bracketed
  split
  · exact Outcome.upTo_nestedTooDeep ..
  · exact Outcome.upTo_nestedTooDeep ..
  · exact .refl _

theorem upTo_listItems {inner inner' : Reader Json} (h : inner.UpTo inner') (first : Bool)
    (text : List Char) : (listItems inner first text).UpTo (listItems inner' first text) :=
  (upTo_items h first text).map _

/-- A value that may be nested deeper is read like one that may not. -/
theorem upTo_value (levels : Nat) : (value levels).UpTo (value (levels + 1)) := by
  induction levels with
  | zero => exact upTo_unbracketed _ _ _
  | succ levels ih =>
    apply upTo_bracketed
    · exact upTo_listItems ih true
    · intro text
      apply Outcome.UpTo.map
      apply upTo_members
      intro earlier name
      exact (Reader.UpTo.refl _).bind fun _ => ih.map _

theorem list_run_other (item : (levels : Nat) → Reader α) (levels : Nat) {text : List Char}
    (h : ∀ rest, skipBlank text ≠ '[' :: rest) :
    (Reader.list item levels).run text = notThis .list (skipBlank text) := by
  unfold Reader.list
  simp only
  split
  · exact absurd ‹_› (h _)
  · exact absurd ‹_› (h _)
  · rfl

theorem upTo_list {item : (levels : Nat) → Reader α}
    (h : ∀ levels, (item levels).UpTo (item (levels + 1))) (levels : Nat) :
    (Reader.list item levels).UpTo (Reader.list item (levels + 1)) := by
  intro text
  by_cases hlist : ∃ rest, skipBlank text = '[' :: rest
  · obtain ⟨rest, heq⟩ := hlist
    simp only [Reader.list, heq]
    cases levels with
    | zero => exact Outcome.upTo_nestedTooDeep ..
    | succ levels =>
      apply Outcome.UpTo.closedBy
      exact upTo_items (h levels) true rest
  · have hother : ∀ rest, skipBlank text ≠ '[' :: rest := by
      intro rest heq
      exact hlist ⟨rest, heq⟩
    rw [list_run_other item levels hother, list_run_other item (levels + 1) hother]
    exact .refl _

theorem upTo_eitherBracket (wanted : Wanted) {inside : (levels : Nat) → Inside α}
    (hlist : ∀ levels text, ((inside levels).onList text).UpTo ((inside (levels + 1)).onList text))
    (hobject : ∀ levels text,
      ((inside levels).onObject text).UpTo ((inside (levels + 1)).onObject text))
    (levels : Nat) :
    (eitherBracket wanted inside levels).UpTo (eitherBracket wanted inside (levels + 1)) := by
  cases levels with
  | zero => exact upTo_unbracketed _ _ _
  | succ levels => exact upTo_bracketed (hlist levels) (hobject levels) _

end StyleScope.Json
