import StoryRegistry.Script.Module

/-!
# Comparing modules

Whether two expressions are the same can be decided by going through both, and so can be whether two
modules are.
-/

set_option autoImplicit false

namespace StoryRegistry.Script

namespace Expr

mutual

/-- The two expressions are the same. -/
def same : Expr → Expr → Bool
  | string a p, string b q => a == b && p == q
  | template a p, template b q => a == b && p == q
  | number a, number b => a == b
  | bool a, bool b => a == b
  | null, null => true
  | name a, name b => a == b
  | signed a o x, signed b p y => a == b && o == p && same x y
  | array a xs, array b ys => a == b && sameItems xs ys
  | object a xs, object b ys => a == b && sameMembers xs ys
  | function a, function b => a == b
  | member a x f, member b y g => a == b && same x y && f == g
  | call a, call b => a == b
  | assignment a x y, assignment b v w => a == b && same x v && same y w
  | wrapped a x, wrapped b y => a == b && same x y
  | other a, other b => a == b
  | _, _ => false

/-- The two lists of expressions are the same. -/
def sameItems : List Expr → List Expr → Bool
  | [], [] => true
  | x :: xs, y :: ys => same x y && sameItems xs ys
  | _, _ => false

/-- The two lists of members are the same. -/
def sameMembers : List (String × Expr) → List (String × Expr) → Bool
  | [], [] => true
  | (k, x) :: xs, (l, y) :: ys => k == l && same x y && sameMembers xs ys
  | _, _ => false

end

mutual

theorem same_iff : ∀ a b : Expr, same a b = true ↔ a = b
  | string a p, b => by cases b <;> simp [same]
  | template a p, b => by cases b <;> simp [same]
  | number a, b => by cases b <;> simp [same]
  | bool a, b => by cases b <;> simp [same]
  | null, b => by cases b <;> simp [same]
  | name a, b => by cases b <;> simp [same]
  | signed a o x, b => by cases b <;> simp [same, same_iff x, and_assoc]
  | array a xs, b => by cases b <;> simp [same, sameItems_iff xs]
  | object a xs, b => by cases b <;> simp [same, sameMembers_iff xs]
  | function a, b => by cases b <;> simp [same]
  | member a x f, b => by cases b <;> simp [same, same_iff x, and_assoc]
  | call a, b => by cases b <;> simp [same]
  | assignment a x y, b => by cases b <;> simp [same, same_iff x, same_iff y, and_assoc]
  | wrapped a x, b => by cases b <;> simp [same, same_iff x]
  | other a, b => by cases b <;> simp [same]

theorem sameItems_iff : ∀ xs ys : List Expr, sameItems xs ys = true ↔ xs = ys
  | [], ys => by cases ys <;> simp [sameItems]
  | x :: xs, ys => by cases ys <;> simp [sameItems, same_iff x, sameItems_iff xs]

theorem sameMembers_iff : ∀ xs ys : List (String × Expr), sameMembers xs ys = true ↔ xs = ys
  | [], ys => by cases ys <;> simp [sameMembers]
  | (k, x) :: xs, ys => by
    cases ys <;> simp [sameMembers, same_iff x, sameMembers_iff xs, Prod.ext_iff]

end

instance : DecidableEq Expr := fun a b => decidable_of_iff (same a b = true) (same_iff a b)

end Expr

deriving instance DecidableEq for Form
deriving instance DecidableEq for Statement

end StoryRegistry.Script
