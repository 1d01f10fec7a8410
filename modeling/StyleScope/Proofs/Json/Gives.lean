import StyleScope.Proofs.Json.Spelling

/-!
# What reading gives

A reader is given the text of something that may mean nothing. It reads what is meant and leaves
the rest, or it does not succeed.
-/

namespace StyleScope.Json

variable {α β σ : Type}

namespace Outcome

/-- What is read is `value?`, and `rest` is left; without a value, nothing is read. -/
def Gives (o : Outcome α) (value? : Option α) (rest : List Char) : Prop :=
  match value? with
  | some value => o = .read value rest
  | none => ∀ value rest, o ≠ .read value rest

theorem gives_read (value : α) (rest : List Char) : (read value rest).Gives (some value) rest := rfl

theorem gives_fault (what : Fault) (unread : Nat) (rest : List Char) :
    (fault what unread : Outcome α).Gives none rest := by
  intro value left h
  cases h

theorem gives_misfit (what : Mismatch) (left rest : List Char) :
    (misfit what left : Outcome α).Gives none rest := by
  intro value left' h
  cases h

theorem Gives.bind {o : Outcome α} {a? : Option α} {rest rest' : List Char}
    {next : α → List Char → Outcome β} {f : α → Option β} (h : o.Gives a? rest)
    (hnext : ∀ a, a? = some a → (next a rest).Gives (f a) rest') :
    (o.bind next).Gives (a?.bind f) rest' := by
  rcases a? with _ | a
  · cases o with
    | read value left => exact absurd rfl (h value left)
    | misfit what left => exact gives_misfit what left rest'
    | fault what unread => exact gives_fault what unread rest'
  · rw [show o = .read a rest from h]
    exact hnext a rfl

theorem Gives.map {o : Outcome α} {a? : Option α} {rest : List Char} (f : α → β)
    (h : o.Gives a? rest) : (o.map f).Gives (a?.map f) rest := by
  rw [Option.map_eq_bind]
  apply h.bind
  intro a _
  exact gives_read (f a) rest

theorem Gives.closedBy {o : Outcome α} {a? : Option α} {rest rest' : List Char}
    {close : List Char → Closing} (h : o.Gives a? rest) (hclose : close rest = ⟨none, rest'⟩) :
    (o.closedBy close).Gives a? rest' := by
  rcases a? with _ | a
  · cases o with
    | read value left => exact absurd rfl (h value left)
    | misfit what left => exact gives_fault _ _ rest'
    | fault what unread => exact gives_fault what unread rest'
  · rw [show o = .read a rest from h]
    unfold Outcome.closedBy
    simp only [hclose]
    exact gives_read a rest'

theorem Gives.unclosed {o : Outcome α} {a? : Option α} {left left' : List Char}
    {close : List Char → Closing} {what : Malformed} (h : o.Gives a? left)
    (hclose : close left = ⟨some what, left'⟩) (rest : List Char) :
    (o.closedBy close).Gives none rest := by
  rcases a? with _ | a
  · cases o with
    | read value left => exact absurd rfl (h value left)
    | misfit what left => exact gives_fault _ _ rest
    | fault what unread => exact gives_fault what unread rest
  · rw [show o = .read a left from h]
    unfold Outcome.closedBy
    simp only [hclose]
    exact gives_fault _ _ rest

theorem map_bind {γ : Type} (f : α → β) (o : Outcome α) (next : β → List Char → Outcome γ) :
    (o.map f).bind next = o.bind fun value rest => next (f value) rest := by
  cases o <;> rfl

end Outcome

/-! ## One step of each loop -/

theorem items_eq (item : Reader α) (first : Bool) (text : List Char) :
    items item first text =
      (nextItem first text).bind fun more rest =>
        if more then
          (item.run rest).bind fun value rest => (items item false rest).map (value :: ·)
        else .read [] rest := by
  rw [items]
  -- The loop keeps the proofs of its own matches, so each outcome is rewritten by hand.
  split
  · rename_i rest h
    rw [h]
    rfl
  · rename_i rest h
    rw [h]
    simp only [Outcome.bind, ↓reduceIte]
    split <;> rename_i h' <;> rw [h']
  · rename_i what rest h
    rw [h]
    rfl
  · rename_i what unread h
    rw [h]
    rfl

theorem members_eq (member : σ → String → Reader σ) (first : Bool) (state : σ)
    (text : List Char) :
    members member first state text =
      (nextName first text).bind fun name? rest =>
        match name? with
        | none => .read state rest
        | some name =>
          ((member state name).run rest).bind fun state rest => members member false state rest := by
  rw [members]
  split
  · rename_i rest h
    rw [h]
    rfl
  · rename_i name rest h
    rw [h]
    simp only [Outcome.bind]
    split <;> rename_i h' <;> rw [h']
  · rename_i what rest h
    rw [h]
    rfl
  · rename_i what unread h
    rw [h]
    rfl

end StyleScope.Json
