import JitInspect.Text.Basic

/-!
# Ranges of code points

A class of characters is given by the ascending list of the ranges of its code points.
-/

namespace JitInspect

namespace Text

/-- Whether one of the ranges, ends included, holds the code point. -/
def covers : List (Nat × Nat) → Nat → Bool
  | [], _ => false
  | (lo, hi) :: rs, n => if n < lo then false else n ≤ hi || covers rs n

end Text

end JitInspect
