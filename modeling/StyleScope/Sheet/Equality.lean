import StyleScope.Sheet.Basic

/-! # Equality of style sheets can be decided -/

namespace StyleScope

mutual

def Node.decEq : (a b : Node) → Decidable (a = b)
  | .conditionalBlock branches location, .conditionalBlock branches' location' =>
    have := Branch.decEqList branches branches'
    decidable_of_iff (branches = branches' ∧ location = location') (by simp)
  | .definition name values location, .definition name' values' location' =>
    decidable_of_iff (name = name' ∧ values = values' ∧ location = location') (by simp)
  | .atRule name params none location, .atRule name' params' none location' =>
    decidable_of_iff (name = name' ∧ params = params' ∧ location = location') (by simp)
  | .atRule name params (some nodes) location, .atRule name' params' (some nodes') location' =>
    have := Node.decEqList nodes nodes'
    decidable_of_iff (name = name' ∧ params = params' ∧ nodes = nodes' ∧ location = location')
      (by simp)
  | .ruleset selectors children location, .ruleset selectors' children' location' =>
    have := Node.decEqList children children'
    decidable_of_iff (selectors = selectors' ∧ children = children' ∧ location = location')
      (by simp)
  | .declaration property values location, .declaration property' values' location' =>
    decidable_of_iff (property = property' ∧ values = values' ∧ location = location') (by simp)
  | .atRule _ _ none _, .atRule _ _ (some _) _ => isFalse (by simp)
  | .atRule _ _ (some _) _, .atRule _ _ none _ => isFalse (by simp)
  | .conditionalBlock .., .definition .. => isFalse nofun
  | .conditionalBlock .., .atRule .. => isFalse nofun
  | .conditionalBlock .., .ruleset .. => isFalse nofun
  | .conditionalBlock .., .declaration .. => isFalse nofun
  | .definition .., .conditionalBlock .. => isFalse nofun
  | .definition .., .atRule .. => isFalse nofun
  | .definition .., .ruleset .. => isFalse nofun
  | .definition .., .declaration .. => isFalse nofun
  | .atRule .., .conditionalBlock .. => isFalse nofun
  | .atRule .., .definition .. => isFalse nofun
  | .atRule .., .ruleset .. => isFalse nofun
  | .atRule .., .declaration .. => isFalse nofun
  | .ruleset .., .conditionalBlock .. => isFalse nofun
  | .ruleset .., .definition .. => isFalse nofun
  | .ruleset .., .atRule .. => isFalse nofun
  | .ruleset .., .declaration .. => isFalse nofun
  | .declaration .., .conditionalBlock .. => isFalse nofun
  | .declaration .., .definition .. => isFalse nofun
  | .declaration .., .atRule .. => isFalse nofun
  | .declaration .., .ruleset .. => isFalse nofun

def Branch.decEq : (a b : Branch) → Decidable (a = b)
  | ⟨kind, condition, children, location⟩, ⟨kind', condition', children', location'⟩ =>
    have := Node.decEqList children children'
    decidable_of_iff (kind = kind' ∧ condition = condition' ∧ children = children' ∧
      location = location') (by simp)

def Node.decEqList : (as bs : List Node) → Decidable (as = bs)
  | [], [] => isTrue rfl
  | [], _ :: _ => isFalse nofun
  | _ :: _, [] => isFalse nofun
  | a :: as, b :: bs =>
    have := Node.decEq a b
    have := Node.decEqList as bs
    decidable_of_iff (a = b ∧ as = bs) (by simp)

def Branch.decEqList : (as bs : List Branch) → Decidable (as = bs)
  | [], [] => isTrue rfl
  | [], _ :: _ => isFalse nofun
  | _ :: _, [] => isFalse nofun
  | a :: as, b :: bs =>
    have := Branch.decEq a b
    have := Branch.decEqList as bs
    decidable_of_iff (a = b ∧ as = bs) (by simp)

end

instance : DecidableEq Node := Node.decEq

instance : DecidableEq Branch := Branch.decEq

deriving instance DecidableEq for Sheet

end StyleScope
