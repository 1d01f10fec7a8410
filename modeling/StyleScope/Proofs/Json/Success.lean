import StyleScope.Proofs.Json.Gives

/-!
# What is read, faults aside

Two readers that want the same thing may complain in different ways. `Outcome.read?` forgets the
complaint, and then what one of them reads can be computed from what the other one reads.
-/

namespace StyleScope.Json

variable {α β γ σ τ : Type}

/-- What is left behind a bracket, if it was closed. -/
def Closing.rest? (closing : Closing) : Option (List Char) :=
  match closing.problem with
  | none => some closing.rest
  | some _ => none

theorem toOption_bind {ε : Type} (x : Except ε α) (f : α → Except ε β) :
    (x >>= f).toOption = x.toOption.bind fun a => (f a).toOption := by
  cases x <;> rfl

theorem toOption_eq_some {ε : Type} {x : Except ε α} {a : α} (h : x.toOption = some a) :
    x = .ok a := by
  cases x with
  | ok b =>
    cases h
    rfl
  | error e => cases h

theorem toOption_eq_some_iff {ε : Type} {x : Except ε α} {a : α} :
    x.toOption = some a ↔ x = .ok a := by
  constructor
  · exact toOption_eq_some
  · rintro rfl
    rfl

namespace Outcome

/-- What was read and what is left, if something was read. -/
def read? : Outcome α → Option (α × List Char)
  | read value rest => some (value, rest)
  | misfit _ _ => none
  | fault _ _ => none

@[simp] theorem read?_read (value : α) (rest : List Char) :
    (read value rest).read? = some (value, rest) := rfl

@[simp] theorem read?_misfit (what : Mismatch) (rest : List Char) :
    (misfit what rest : Outcome α).read? = none := rfl

@[simp] theorem read?_fault (what : Fault) (unread : Nat) :
    (fault what unread : Outcome α).read? = none := rfl

theorem read?_eq_some_iff {o : Outcome α} {value : α} {rest : List Char} :
    o.read? = some (value, rest) ↔ o = .read value rest := by
  cases o <;> simp

theorem read?_bind (o : Outcome α) (next : α → List Char → Outcome β) :
    (o.bind next).read? = o.read?.bind fun (value, rest) => (next value rest).read? := by
  cases o <;> rfl

theorem read?_map (f : α → β) (o : Outcome α) :
    (o.map f).read? = o.read?.map fun (value, rest) => (f value, rest) := by
  cases o <;> rfl

theorem read?_closedBy (close : List Char → Closing) (o : Outcome α) :
    (o.closedBy close).read? =
      o.read?.bind fun (value, rest) => (close rest).rest?.map fun rest => (value, rest) := by
  cases o with
  | read value rest =>
    simp only [Outcome.closedBy, read?_read, Option.bind_some]
    split <;> rename_i heq <;> rw [heq] <;> rfl
  | misfit what rest => rfl
  | fault what unread => rfl

theorem eq_read_of_bind {o : Outcome α} {next : α → List Char → Outcome β} {b : β}
    {rest : List Char} (h : o.bind next = .read b rest) :
    ∃ a left, o = .read a left ∧ next a left = .read b rest := by
  cases o with
  | read a left => exact ⟨a, left, rfl, h⟩
  | misfit what left => cases h
  | fault what unread => cases h

theorem eq_read_of_map {o : Outcome α} {f : α → β} {b : β} {rest : List Char}
    (h : o.map f = .read b rest) : ∃ a, o = .read a rest ∧ f a = b := by
  obtain ⟨a, left, ho, h⟩ := eq_read_of_bind h
  cases h
  exact ⟨a, ho, rfl⟩

theorem eq_read_of_check {o : Outcome α} {f : α → Except Mismatch β} {b : β} {rest : List Char}
    (h : o.check f = .read b rest) : ∃ a, o = .read a rest ∧ f a = .ok b := by
  obtain ⟨a, left, ho, h⟩ := eq_read_of_bind h
  split at h
  · cases h
    exact ⟨a, ho, ‹_›⟩
  · cases h

theorem eq_read_of_closedBy {close : List Char → Closing} {o : Outcome α} {a : α}
    {rest : List Char} (h : o.closedBy close = .read a rest) :
    ∃ left, o = .read a left ∧ close left = ⟨none, rest⟩ := by
  cases o with
  | read value left =>
    unfold Outcome.closedBy at h
    simp only at h
    split at h
    · cases h
      exact ⟨left, rfl, ‹_›⟩
    · cases h
  | misfit what left => cases h
  | fault what unread => cases h

theorem gives_iff {o : Outcome α} {value? : Option α} {rest : List Char} :
    o.Gives value? rest ↔ o.read? = value?.map fun value => (value, rest) := by
  cases value? with
  | some value => exact read?_eq_some_iff.symm
  | none => cases o <;> simp [Gives]

end Outcome

theorem notThis_read? (wanted : Wanted) (text : List Char) :
    (notThis wanted text : Outcome α).read? = none := by
  unfold notThis
  split
  · rfl
  · rfl
  · cases scalar text <;> rfl

/-! ## Making something else of what was read -/

/-- `f` of what was read. -/
def decoded (f : α → Option β) (read : α × List Char) : Option (β × List Char) :=
  (f read.1).map fun value => (value, read.2)

theorem decoded_eq_none {f : α → Option β} {read : α × List Char} (h : f read.1 = none) :
    decoded f read = none := by
  unfold decoded
  rw [h]
  rfl

theorem bind_decoded_none (read? : Option (α × List Char)) :
    read?.bind (decoded fun _ => (none : Option β)) = none := by
  cases read? <;> rfl

theorem read?_check (f : α → Except Mismatch β) (o : Outcome α) :
    (o.check f).read? = o.read?.bind (decoded fun value => (f value).toOption) := by
  cases o with
  | read value rest =>
    simp only [Outcome.check, Outcome.bind_read, Outcome.read?_read, Option.bind_some, decoded]
    cases f value <;> rfl
  | misfit what rest => rfl
  | fault what unread => rfl

theorem map_bind_decoded (f : α → β) (g : β → Option γ) (o : Outcome α) :
    (o.map f).read?.bind (decoded g) = o.read?.bind (decoded fun value => g (f value)) := by
  cases o <;> rfl

theorem closedBy_bind_decoded (close : List Char → Closing) (f : α → Option β) {o : Outcome α}
    {o' : Outcome β} (h : o.read?.bind (decoded f) = o'.read?) :
    (o.closedBy close).read?.bind (decoded f) = (o'.closedBy close).read? := by
  rw [Outcome.read?_closedBy, Outcome.read?_closedBy, ← h, Option.bind_assoc, Option.bind_assoc]
  congr 1
  funext ⟨value, rest⟩
  cases hclose : (close rest).rest? <;> cases hf : f value <;> simp [decoded, hclose, hf]

theorem Outcome.Gives.decoded {o : Outcome α} {o' : Outcome β} {value? : Option α}
    {rest : List Char} {f : α → Option β} (h : o.Gives value? rest)
    (hdecoded : o.read?.bind (decoded f) = o'.read?) : o'.Gives (value?.bind f) rest := by
  rw [gives_iff] at h ⊢
  rw [← hdecoded, h]
  cases value? <;> rfl

/-! ## The loops -/

-- Induction on the length of the text: an item leaves less of it than there was.
theorem items_decoded {item : Reader α} {item' : Reader β} {f : α → Option β}
    (h : ∀ text, (item.run text).read?.bind (decoded f) = (item'.run text).read?) (first : Bool)
    (text : List Char) :
    (items item first text).read?.bind (decoded (List.mapM f)) =
      (items item' first text).read? := by
  induction hn : text.length using Nat.strongRecOn generalizing first text with
  | ind n ih =>
    subst hn
    rw [items_eq, items_eq, Outcome.read?_bind, Outcome.read?_bind, Option.bind_assoc]
    apply Option.bind_congr
    rintro ⟨more, rest⟩ hnext
    have hlt := below_nextItem first text (Outcome.read?_eq_some_iff.mp hnext)
    cases more with
    | false => rfl
    | true =>
      simp only [↓reduceIte, Outcome.read?_bind, ← h rest, Option.bind_assoc]
      apply Option.bind_congr
      rintro ⟨value, rest'⟩ hitem
      have hlt' := item.shrinks rest (Outcome.read?_eq_some_iff.mp hitem)
      have hrest := ih rest'.length (by omega) false rest' rfl
      rw [map_bind_decoded]
      simp only [List.mapM_cons, Outcome.read?_map]
      rcases hf : f value with _ | value'
      · rw [decoded_eq_none hf]
        exact bind_decoded_none _
      · simp only [decoded, hf, Option.map_some, Option.bind_some, ← hrest]
        rcases (items item false rest').read? with _ | read
        · rfl
        · cases hfs : List.mapM f read.1 <;> simp [decoded, hfs]

theorem members_decoded {member : σ → String → Reader σ} {member' : τ → String → Reader τ}
    {f : σ → Option τ}
    (h : ∀ state name text, ((member state name).run text).read?.bind (decoded f) =
      (f state).bind fun state => ((member' state name).run text).read?)
    (first : Bool) (state : σ) (text : List Char) :
    (members member first state text).read?.bind (decoded f) =
      (f state).bind fun state => (members member' first state text).read? := by
  induction hn : text.length using Nat.strongRecOn generalizing first state text with
  | ind n ih =>
    subst hn
    simp only [members_eq _ first _ text, Outcome.read?_bind, Option.bind_assoc]
    rcases hnext : (nextName first text).read? with _ | ⟨name?, rest⟩
    · cases f state <;> rfl
    · have hlt := below_nextName first text (Outcome.read?_eq_some_iff.mp hnext)
      rcases name? with _ | name
      · cases hf : f state <;> simp [decoded, hf]
      · simp only [Option.bind_some, Outcome.read?_bind]
        have hstep := h state name rest
        -- What follows the first member is decoded from the state that the member leaves.
        have hrest : ∀ read ∈ ((member state name).run rest).read?,
            (members member false read.1 read.2).read?.bind (decoded f) =
              (decoded f read).bind fun read => (members member' false read.1 read.2).read? := by
          rintro ⟨state', rest'⟩ hmember
          have hlt' := (member state name).shrinks rest (Outcome.read?_eq_some_iff.mp hmember)
          rw [ih rest'.length (by omega) false state' rest' rfl]
          cases hf : f state' <;> simp [decoded, hf]
        rw [Option.bind_assoc, Option.bind_congr hrest, ← Option.bind_assoc, hstep,
          Option.bind_assoc]

end StyleScope.Json
