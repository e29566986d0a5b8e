/-! Sets of characters written as ascending ranges of code points. -/

namespace FirstFollow.Text

/-- Every `step`-th code point from `first` to `last`. -/
structure CharRange where
  first : Nat
  last : Nat
  step : Nat

def CharRange.contains (r : CharRange) (code : Nat) : Bool :=
  decide (r.first ≤ code) && decide (code ≤ r.last) && (code - r.first) % r.step == 0

/-- Looks for a code point in ascending ranges; the first range above it ends the search. -/
def coveredCode : List CharRange → Nat → Bool
  | [], _ => false
  | r :: rs, code => if code < r.first then false else r.contains code || coveredCode rs code

def covered (rs : List CharRange) (c : Char) : Bool := coveredCode rs c.toNat

end FirstFollow.Text
