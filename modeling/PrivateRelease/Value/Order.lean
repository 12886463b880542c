import PrivateRelease.Value.Basic

/-!
# Comparing values

Values are equal when they have the same shape and equal scalars; scalars of one type are ordered.
-/

namespace PrivateRelease

namespace Value

def sameScalars {p : Primitive} : List p.Carrier → List p.Carrier → Bool
  | [], [] => true
  | x :: xs, y :: ys => Primitive.same x y && sameScalars xs ys
  | _, _ => false

mutual

def same : Value → Value → Bool
  | scalar p x, scalar q y => if h : p = q then Primitive.same (h ▸ x) y else false
  | vector p xs, vector q ys => if h : p = q then sameScalars (h ▸ xs) ys else false
  | tuple vs, tuple ws => sameList vs ws
  | curve c, curve d => c.same d
  | _, _ => false

def sameList : List Value → List Value → Bool
  | [], [] => true
  | v :: vs, w :: ws => same v w && sameList vs ws
  | _, _ => false

end

instance : BEq Value := ⟨same⟩

/-- The order of two scalars of one type. -/
def order : Value → Value → Option Ordering
  | scalar p x, scalar q y => if h : p = q then Primitive.order (h ▸ x) y else none
  | _, _ => none

end Value

end PrivateRelease
