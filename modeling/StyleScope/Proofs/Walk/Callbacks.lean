import StyleScope.Proofs.Walk.Moments

/-!
# What is written down of a walk

A walk only ever calls its visitor. So whatever is written down of a watched walk has happened: it
is what the visitor does when it is called in the state before it.
-/

namespace StyleScope

variable {σ ε : Type}

/-- A moment is what a visitor does at a callback. -/
def Moment.Happens (visitor : Visitor (StateT σ (Except ε))) (moment : Moment σ) : Prop :=
  match moment.call with
  | .enter item answer => visitor.enter item moment.before = .ok (answer, moment.after)
  | .leave item => visitor.leave item moment.before = .ok ((), moment.after)
  | .value v => visitor.value v moment.before = .ok ((), moment.after)

namespace Visitor

variable {α β : Type} {visitor : Visitor (StateT σ (Except ε))}

/-- What this writes down, if it goes well, has happened. -/
def Logs (visitor : Visitor (StateT σ (Except ε))) (watched : Watching σ (Except ε) α) : Prop :=
  ∀ log before a log' after, watched log before = .ok ((a, log'), after) →
    ∃ moments, log' = log ++ moments ∧ ∀ moment ∈ moments, moment.Happens visitor

theorem logs_pure (a : α) : Logs visitor (pure a : Watching σ (Except ε) α) := by
  intro log before a' log' after h
  cases h
  exact ⟨[], (List.append_nil log).symm, nofun⟩

theorem Logs.bind {watched : Watching σ (Except ε) α} {next : α → Watching σ (Except ε) β}
    (h : Logs visitor watched) (hnext : ∀ a, Logs visitor (next a)) :
    Logs visitor (watched >>= next) := by
  intro log before b log' after hbind
  change (watched log before >>= fun result => next result.1.1 result.1.2 result.2) = _ at hbind
  cases hwatched : watched log before with
  | error problem =>
    rw [hwatched] at hbind
    cases hbind
  | ok result =>
    obtain ⟨⟨a, between⟩, state⟩ := result
    rw [hwatched] at hbind
    obtain ⟨first, rfl, hfirst⟩ := h _ _ _ _ _ hwatched
    obtain ⟨rest, rfl, hrest⟩ := hnext a _ _ _ _ _ hbind
    refine ⟨first ++ rest, List.append_assoc .., ?_⟩
    intro moment hmem
    rcases List.mem_append.mp hmem with hmem | hmem
    · exact hfirst moment hmem
    · exact hrest moment hmem

theorem logs_callback (callback : StateT σ (Except ε) α) (call : α → Call)
    (h : ∀ before a after, callback before = .ok (a, after) →
      Moment.Happens visitor ⟨call a, before, after⟩) :
    Logs visitor fun log before => callback before >>= fun result =>
      pure ((result.1, log ++ [⟨call result.1, before, result.2⟩]), result.2) := by
  intro log before a log' after hwatched
  change (callback before >>= _) = _ at hwatched
  cases hcallback : callback before with
  | error problem =>
    rw [hcallback] at hwatched
    cases hwatched
  | ok result =>
    rw [hcallback] at hwatched
    cases hwatched
    refine ⟨_, rfl, ?_⟩
    intro moment hmem
    rw [List.mem_singleton.mp hmem]
    exact h before _ _ hcallback

theorem logs_enter (item : Item) : Logs visitor (visitor.watched.enter item) :=
  logs_callback (visitor.enter item) (.enter item) fun _ _ _ h => h

theorem logs_leave (item : Item) : Logs visitor (visitor.watched.leave item) :=
  logs_callback (visitor.leave item) (fun _ => .leave item) fun _ _ _ h => h

theorem logs_value (v : Value) : Logs visitor (visitor.watched.value v) :=
  logs_callback (visitor.value v) (fun _ => .value v) fun _ _ _ h => h

theorem logs_visit (item : Item) {inside : Watching σ (Except ε) Unit}
    (h : Logs visitor inside) : Logs visitor (visitor.watched.visit item inside) := by
  unfold visit
  apply (logs_enter item).bind
  intro answer
  cases answer with
  | descend => exact h.bind fun _ => logs_leave item
  | skipChildren => exact (logs_pure ()).bind fun _ => logs_leave item

theorem logs_walkParts {parts : List Part}
    (h : ∀ part ∈ parts, Logs visitor (visitor.watched.walkPart part)) :
    Logs visitor (visitor.watched.walkParts parts) := by
  induction parts with
  | nil => exact logs_pure ()
  | cons part parts ih =>
    rw [walkParts_cons]
    exact (h part (by simp)).bind fun _ => ih fun part hmem => h part (by simp [hmem])

theorem logs_walkPart (part : Part) : Logs visitor (visitor.watched.walkPart part) := by
  induction part using Part.induction with
  | value v => exact logs_value v
  | item item ih =>
    rw [walkPart_item]
    exact logs_visit item (logs_walkParts ih)

theorem happens_of_watch {sheet : Sheet} {before after : σ} {moments : List (Moment σ)}
    (h : visitor.watch sheet before = .ok (moments, after)) :
    ∀ moment ∈ moments, moment.Happens visitor := by
  have hlogs : Logs visitor (visitor.watched.walkSheet sheet) := by
    rw [walkSheet_eq]
    exact logs_walkParts fun part _ => logs_walkPart part
  unfold watch at h
  cases hwalk : visitor.watched.walkSheet sheet [] before with
  | error problem => simp [bind, Except.bind, hwalk] at h
  | ok result =>
    simp only [bind, Except.bind, hwalk] at h
    cases h
    obtain ⟨moments, heq, hhappens⟩ := hlogs _ _ _ _ _ hwalk
    rw [heq]
    exact hhappens

end Visitor

end StyleScope
