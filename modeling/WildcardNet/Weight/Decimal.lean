import WildcardNet.Weight.Magnitude
/-!
# Decimals

A decimal is a natural number times a power of ten. This file reads a decimal as a magnitude and
finds the shortest decimal that reads as a given magnitude: on finer and finer grids of powers of
ten it tests the two neighbours of the magnitude, and stops at the first grid on which one of them
reads back. The finest grid holds the magnitude itself, so the search always ends there.
-/

namespace WildcardNet

/-- The number `digits * 10 ^ exponent`. -/
structure Decimal where
  digits : Nat
  exponent : Int
deriving DecidableEq, Repr

namespace Decimal

/-- The magnitude nearest to a decimal, if that is finite. -/
def toMagnitude? (d : Decimal) : Option Magnitude :=
  if 0 ≤ d.exponent then Magnitude.ofRatio? (d.digits * Nat.pow 10 d.exponent.toNat) 1
  else Magnitude.ofRatio? d.digits (Nat.pow 10 (-d.exponent).toNat)

/-- The decimal reads as the magnitude. -/
def readsAs (d : Decimal) (m : Magnitude) : Bool := d.toMagnitude? == some m

/-- Numerator of a magnitude divided by `10 ^ grid`. -/
def numerator (m : Magnitude) (grid : Int) : Nat :=
  if 0 ≤ grid then m.units else m.units * Nat.pow 10 (-grid).toNat

/-- Denominator of a magnitude divided by `10 ^ grid`. -/
def denominator (grid : Int) : Nat :=
  if 0 ≤ grid then Nat.pow 2 149 * Nat.pow 10 grid.toNat else Nat.pow 2 149

/-- The largest multiple of `10 ^ grid` not above the magnitude. -/
def below (m : Magnitude) (grid : Int) : Decimal := ⟨numerator m grid / denominator grid, grid⟩

/-- The smallest multiple of `10 ^ grid` above the magnitude. -/
def above (m : Magnitude) (grid : Int) : Decimal := ⟨numerator m grid / denominator grid + 1, grid⟩

/-- The magnitude lies in the lower half between its two neighbours. -/
def nearerBelow (m : Magnitude) (grid : Int) : Bool :=
  2 * (numerator m grid % denominator grid) < denominator grid

/-- The neighbour of the magnitude among the multiples of `10 ^ grid` that reads back as it. When
both do it is the nearer one, and the larger one if they are equally near. -/
def neighbour? (m : Magnitude) (grid : Int) : Option Decimal :=
  if (below m grid).readsAs m && (nearerBelow m grid || !(above m grid).readsAs m) then
    some (below m grid)
  else if (above m grid).readsAs m then some (above m grid)
  else none

/-- The magnitude written out in full. -/
def exact (m : Magnitude) : Decimal := ⟨m.units * Nat.pow 5 149, -149⟩

/-- Searches the grids from `10 ^ (k - 149)` downwards. -/
def searchFrom (m : Magnitude) : Nat → Decimal
  | 0 => exact m
  | k + 1 =>
    match neighbour? m (k + 1 - 149) with
    | some d => d
    | none => searchFrom m k

/-- The number of digits in front of the point. The magnitude is less than ten to this power, so no
coarser grid has a neighbour that reads back. -/
def wholeDigits (m : Magnitude) : Nat := (Nat.toDigits 10 (m.units / Nat.pow 2 149)).length

/-- The shortest decimal that reads as the magnitude. -/
def shortest (m : Magnitude) : Decimal :=
  if m = Magnitude.zero then ⟨0, 0⟩ else searchFrom m (149 + wholeDigits m)

theorem readsAs_eq_true_iff {d : Decimal} {m : Magnitude} :
    d.readsAs m = true ↔ d.toMagnitude? = some m := by
  simp [readsAs]

theorem readsAs_of_neighbour? {m : Magnitude} {grid : Int} {d : Decimal}
    (h : neighbour? m grid = some d) : d.readsAs m = true := by
  unfold neighbour? at h
  split at h
  · simp_all
  · split at h <;> simp_all

end Decimal

end WildcardNet
