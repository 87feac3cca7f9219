/-!
# Magnitudes

A weight without its sign is a binary floating-point number of 32 bits: a mantissa of at most 24
bits times a power of two from `2 ^ (-149)` up to `2 ^ 104`. The finite magnitudes are numbered in
increasing order, and the number of a magnitude is its *rank*. A ratio of natural numbers is read
as the nearest magnitude, and of two equally near ones as the one with even rank.
-/

namespace WildcardNet

/-- Number of finite magnitudes; the rank of infinity, were it one. -/
def Magnitude.count : Nat := Nat.pow 2 31 - Nat.pow 2 23

/-- A finite magnitude, given by its place in increasing order. -/
structure Magnitude where
  rank : Nat
  rank_lt : rank < Magnitude.count
deriving DecidableEq

namespace Magnitude

def zero : Magnitude := ⟨0, by decide⟩

/-- The whole part of the magnitude once `2 ^ shift` has been taken out. -/
def mantissa (m : Magnitude) : Nat :=
  if m.rank < Nat.pow 2 23 then m.rank else Nat.pow 2 23 + m.rank % Nat.pow 2 23

def shift (m : Magnitude) : Nat := m.rank / Nat.pow 2 23 - 1

/-- The magnitude in units of `2 ^ (-149)`, the least positive one. -/
def units (m : Magnitude) : Nat := m.mantissa * Nat.pow 2 m.shift

/-- The natural number nearest to `num / den`, a half going to the even neighbour. -/
def roundDiv (num den : Nat) : Nat :=
  let half := compare (2 * (num % den)) den
  if half = .gt ∨ (half = .eq ∧ num / den % 2 = 1) then num / den + 1 else num / den

/-- The rank nearest to `num / den`; at least `count` when the ratio is too large. -/
def nearestRank (num den : Nat) : Nat :=
  let scaled := num * Nat.pow 2 149
  let shift := (scaled / den).log2 - 23
  shift * Nat.pow 2 23 + roundDiv scaled (den * Nat.pow 2 shift)

/-- The magnitude nearest to `num / den`, if that is finite. -/
def ofRatio? (num den : Nat) : Option Magnitude :=
  if h : nearestRank num den < count then some ⟨nearestRank num den, h⟩ else none

end Magnitude

end WildcardNet
