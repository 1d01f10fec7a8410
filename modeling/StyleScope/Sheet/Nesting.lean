import StyleScope.Json.Nesting
import StyleScope.Sheet.Decode

/-!
# Nodes inside nodes

`Node.ofJson` is given as many levels as its value is nested deep. That is enough: the nodes inside
are read by `Node.ofJson` too, which is what `Node.ofJson_eq` says.
-/

namespace StyleScope

open Json (Mismatch Agree Shape)

theorem Branch.agree_ofJson {depth : Nat} {f g : Json → Except Mismatch Node}
    (h : Agree depth f g) : Agree depth (Branch.ofJson f) (Branch.ofJson g) := by
  refine (Shape.Agree.read _ ?_).mono (Nat.le_succ depth)
  exact ((((Shape.Agree.refl ..).map _).seq (Shape.Agree.refl ..)).seq
    (.optional _ _ (h.asList.mono (Nat.le_succ depth)))).seq (Shape.Agree.refl ..)

namespace Node

theorem agree_shape {depth : Nat} {f g : Json → Except Mismatch Node} (h : Agree depth f g)
    (kind : Kind) : Shape.Agree depth (shape f kind) (shape g kind) := by
  have hlist := h.asList.mono (Nat.le_succ depth)
  cases kind with
  | conditionalBlock =>
    exact ((Shape.Agree.required _
      ((Branch.agree_ofJson h).asList.mono (Nat.le_succ depth))).map _).seq (Shape.Agree.refl ..)
  | definition => exact Shape.Agree.refl ..
  | atRule =>
    exact (((Shape.Agree.refl ..).seq (Shape.Agree.refl ..)).seq
      (.optional _ _ hlist.asOption)).seq (Shape.Agree.refl ..)
  | ruleset =>
    exact ((Shape.Agree.refl ..).seq (.optional _ _ hlist)).seq (Shape.Agree.refl ..)
  | declaration => exact Shape.Agree.refl ..

theorem agree_ofBody {depth : Nat} {f g : Json → Except Mismatch Node} (h : Agree depth f g)
    (kind : Kind) : Agree (depth + 1) (ofBody f kind) (ofBody g kind) :=
  (agree_shape h kind).read kind.recordName

theorem agree_ofJsonWith {depth : Nat} {f g : Json → Except Mismatch Node} (h : Agree depth f g) :
    Agree (depth + 1) (ofJsonWith f) (ofJsonWith g) := by
  intro json hlt
  cases json with
  | object members =>
    simp only [ofJsonWith]
    cases kindOfMembers members with
    | error what => simp only [bind, Except.bind]
    | ok kind =>
      simp only [bind, Except.bind]
      refine agree_ofBody h kind _ ?_
      rw [Json.depth] at hlt ⊢
      exact Nat.lt_of_le_of_lt
        (Nat.succ_le_succ (Json.depthOfMembers_filter_le _ members)) hlt
  | list items =>
    cases items with
    | nil => rfl
    | cons tag rest =>
      simp only [ofJsonWith]
      cases Kind.ofJson tag with
      | error what => simp only [bind, Except.bind]
      | ok kind =>
        simp only [bind, Except.bind]
        refine agree_ofBody h kind _ ?_
        rw [Json.depth, Json.depthOfItems] at hlt
        rw [Json.depth]
        omega
  | _ => rfl

theorem ofJsonWithin_eq {levels : Nat} {json : Json} (h : json.depth ≤ levels) :
    ofJsonWithin levels json = ofJsonWithin json.depth json := by
  induction levels using Nat.strongRecOn generalizing json with
  | ind levels ih =>
    cases hd : json.depth with
    | zero =>
      have hflat : ∀ f g, ofJsonWith f json = ofJsonWith g json := fun f g => by
        cases json with
        | list items => simp [Json.depth] at hd
        | object members => simp [Json.depth] at hd
        | _ => rfl
      cases levels <;> exact hflat ..
    | succ depth =>
      obtain ⟨levels, rfl⟩ := Nat.exists_eq_add_one_of_ne_zero (show levels ≠ 0 by omega)
      have hagree : Agree (depth + 1) (ofJsonWithin levels) (ofJsonWithin depth) := by
        intro inner hlt
        rw [ih levels (by omega) (by omega), ih depth (by omega) (by omega)]
      exact agree_ofJsonWith hagree json (by omega)

/-- The nodes inside a node are read like the node itself. -/
theorem ofJson_eq (json : Json) : ofJson json = ofJsonWith ofJson json := by
  have hagree : Agree (json.depth + 1) (ofJsonWithin json.depth) ofJson :=
    fun inner hlt => ofJsonWithin_eq (Nat.le_of_lt_succ hlt)
  rw [ofJson, ← ofJsonWithin_eq (Nat.le_succ json.depth)]
  exact agree_ofJsonWith hagree json (by omega)

end Node

end StyleScope
