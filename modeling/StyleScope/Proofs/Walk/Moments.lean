import StyleScope.Proofs.Walk.Visits

/-!
# Watching a walk

A visitor with a state can be watched: each callback is written down with its answer and with the
state just before and just after it. Watching a walk does not change what the walk does.
-/

namespace StyleScope

/-- A callback as it happened, with the state of the visitor just before and just after it. -/
structure Moment (σ : Type) where
  call : Call
  before : σ
  after : σ

/-- Computations with the state of a visitor, while it is watched. -/
abbrev Watching (σ : Type) (n : Type → Type) := StateT (List (Moment σ)) (StateT σ n)

namespace Visitor

variable {σ : Type} {n : Type → Type} [Monad n]

/-- Does what the visitor does and writes down each callback. -/
def watched (visitor : Visitor (StateT σ n)) : Visitor (Watching σ n) where
  enter item moments before := do
    let (answer, after) ← visitor.enter item before
    return ((answer, moments ++ [⟨.enter item answer, before, after⟩]), after)
  leave item moments before := do
    let ((), after) ← visitor.leave item before
    return (((), moments ++ [⟨.leave item, before, after⟩]), after)
  value v moments before := do
    let ((), after) ← visitor.value v before
    return (((), moments ++ [⟨.value v, before, after⟩]), after)

/-- The callbacks of a walk of a sheet as they happen, and the state after it. -/
def watch (visitor : Visitor (StateT σ n)) (sheet : Sheet) (state : σ) : n (List (Moment σ) × σ) :=
  do
    let (((), moments), after) ← visitor.watched.walkSheet sheet [] state
    return (moments, after)

/-- A walk ends, watched or not, in the state `after`, and these are its callbacks. -/
def Ends (walk : StateT σ n Unit) (watched : Watching σ n Unit) (before : σ)
    (moments : List (Moment σ)) (after : σ) : Prop :=
  walk before = pure ((), after) ∧
    ∀ log, watched log before = pure (((), log ++ moments), after)

variable {visitor : Visitor (StateT σ n)}

theorem ends_pure (state : σ) :
    Ends (pure () : StateT σ n Unit) (pure () : Watching σ n Unit) state [] state := by
  refine ⟨rfl, fun log => ?_⟩
  rw [List.append_nil]
  rfl

variable [LawfulMonad n] {before between after : σ}

theorem Ends.bind {walk walk' : StateT σ n Unit} {watched watched' : Watching σ n Unit}
    {first rest : List (Moment σ)} (h : Ends walk watched before first between)
    (h' : Ends walk' watched' between rest after) :
    Ends (do walk; walk') (do watched; watched') before (first ++ rest) after := by
  constructor
  · change (walk before >>= fun result => walk' result.2) = _
    rw [h.1, pure_bind, h'.1]
  · intro log
    change (watched log before >>= fun result => watched' result.1.2 result.2) = _
    rw [h.2, pure_bind, h'.2, List.append_assoc]

theorem ends_value {v : Value} (h : visitor.value v before = pure ((), after)) :
    Ends (visitor.value v) (visitor.watched.value v) before [⟨.value v, before, after⟩] after := by
  refine ⟨h, fun log => ?_⟩
  change (visitor.value v before >>= _) = _
  rw [h, pure_bind]

theorem ends_leave {item : Item} (h : visitor.leave item before = pure ((), after)) :
    Ends (visitor.leave item) (visitor.watched.leave item) before [⟨.leave item, before, after⟩]
      after := by
  refine ⟨h, fun log => ?_⟩
  change (visitor.leave item before >>= _) = _
  rw [h, pure_bind]

theorem Ends.visit {item : Item} {answer : Action} {inside : StateT σ n Unit}
    {inside' : Watching σ n Unit} {rest : List (Moment σ)}
    (hrest : match answer with
      | .descend => Ends (do inside; visitor.leave item) (do inside'; visitor.watched.leave item)
          between rest after
      | .skipChildren => Ends (visitor.leave item) (visitor.watched.leave item) between rest after)
    (henter : visitor.enter item before = pure (answer, between)) :
    Ends (visitor.visit item inside) (visitor.watched.visit item inside') before
      (⟨.enter item answer, before, between⟩ :: rest) after := by
  constructor
  · change (visitor.enter item before >>= _) = _
    rw [henter, pure_bind]
    cases answer <;> exact hrest.1
  · intro log
    change ((visitor.enter item before >>= _) >>= _) = _
    rw [henter, pure_bind, pure_bind, List.append_cons log _ rest]
    cases answer <;> exact hrest.2 _

theorem ends_item {item : Item} {answer : Action} {entered inner : σ}
    {moments : List (Moment σ)}
    (hinside : match answer with
      | .descend => Ends (visitor.walkParts item.parts) (visitor.watched.walkParts item.parts)
          entered moments inner
      | .skipChildren => moments = [] ∧ inner = entered)
    (henter : visitor.enter item before = pure (answer, entered))
    (hleave : visitor.leave item inner = pure ((), after)) :
    Ends (visitor.walkPart (.item item)) (visitor.watched.walkPart (.item item)) before
      (⟨.enter item answer, before, entered⟩ :: (moments ++ [⟨.leave item, inner, after⟩]))
      after := by
  rw [walkPart_item, walkPart_item]
  refine Ends.visit ?_ henter
  cases answer with
  | descend => exact hinside.bind (ends_leave hleave)
  | skipChildren =>
    obtain ⟨rfl, rfl⟩ := hinside
    exact ends_leave hleave

theorem watch_eq {sheet : Sheet} {moments : List (Moment σ)}
    (h : Ends (visitor.walkParts sheet.parts) (visitor.watched.walkParts sheet.parts) before moments
      after) :
    visitor.watch sheet before = pure (moments, after) ∧
      visitor.walkSheet sheet before = pure ((), after) := by
  unfold watch
  rw [walkSheet_eq, walkSheet_eq, h.1, h.2, pure_bind, List.nil_append]
  exact ⟨rfl, rfl⟩

end Visitor

end StyleScope
