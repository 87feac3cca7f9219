import WildcardNet.Weight.Magnitude
/-!
# Weights

Weights of the tropical semiring: the larger the weight, the worse the path. Plus infinity is the
weight of no path at all, the semiring's zero, and the number zero is its one. Zero comes with
either sign, and a weight that is not a number compares with nothing.
-/

namespace WildcardNet

inductive Weight
  | nan
  | infinite (negative : Bool)
  | finite (negative : Bool) (magnitude : Magnitude)
deriving DecidableEq

namespace Weight

/-- The weight of no path. -/
def zero : Weight := .infinite false

/-- The weight of the empty path. -/
def one : Weight := .finite false Magnitude.zero

/-- Where the weight stands on the number line, the ranks being the marks on it. -/
def position? : Weight → Option Int
  | .nan => none
  | .infinite negative => some (if negative then -Magnitude.count else Magnitude.count)
  | .finite negative m => some (if negative then -m.rank else m.rank)

/-- A weight that is not a number has no order to any weight. -/
def compare? (a b : Weight) : Option Ordering := do
  return compare (← a.position?) (← b.position?)

/-- The same number: the two zeros are, and a weight that is not a number is not, not even to
itself. -/
def sameNumber (a b : Weight) : Bool := a.compare? b == some .eq

def isZero (w : Weight) : Bool := w == zero

/-- Zero of either sign. -/
def isOne (w : Weight) : Bool := w.position? == some 0

def isNegative : Weight → Bool
  | .nan => false
  | .infinite negative => negative
  | .finite negative _ => negative

end Weight

end WildcardNet
