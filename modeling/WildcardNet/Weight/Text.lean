import WildcardNet.Text.Numeral
import WildcardNet.Weight.Basic
import WildcardNet.Weight.Decimal
/-!
# The text of a weight

A weight is written with the fewest digits that read back as it, without an exponent. It is read
from digits with an optional point, sign and exponent, or from the words for infinity and for a
weight that is not a number, in any letter case.
-/

namespace WildcardNet

namespace Decimal

/-- The digits in full, with a point only in front of a fractional part. -/
def positional (d : Decimal) : List Char :=
  if 0 ≤ d.exponent then Text.numeral d.digits ++ List.replicate d.exponent.toNat '0'
  else
    let places := (-d.exponent).toNat
    let digits := Text.numeral d.digits
    let padded := List.replicate (places + 1 - digits.length) '0' ++ digits
    padded.take (padded.length - places) ++ '.' :: padded.drop (padded.length - places)

/-- The value of exponent digits. It stops growing past `2 ^ 16`, far beyond every magnitude. -/
def exponentValue (digits : List Char) : Nat :=
  digits.foldl (fun n c => if n < Nat.pow 2 16 then 10 * n + (c.toNat - '0'.toNat) else n) 0

/-- The digits after an exponent mark, with their sign. -/
def readExponent? (cs : List Char) : Option Int :=
  let negative := cs.head? == some '-'
  let digits := if cs.head? == some '-' || cs.head? == some '+' then cs.tail else cs
  if digits ≠ [] ∧ digits.all Char.isDigit then
    some (if negative then -exponentValue digits else exponentValue digits)
  else none

/-- Digits around an optional point, at least one in all, and an optional exponent. -/
def read? (cs : List Char) : Option Decimal :=
  let whole := cs.takeWhile Char.isDigit
  let afterWhole := cs.dropWhile Char.isDigit
  let fraction :=
    if afterWhole.head? == some '.' then afterWhole.tail.takeWhile Char.isDigit else []
  let mark :=
    if afterWhole.head? == some '.' then afterWhole.tail.dropWhile Char.isDigit else afterWhole
  let digits := whole ++ fraction
  if digits = [] then none
  else
    match mark with
    | [] => some ⟨Nat.ofDigitChars 10 digits 0, -fraction.length⟩
    | c :: cs =>
      if c = 'e' ∨ c = 'E' then
        (readExponent? cs).map fun e => ⟨Nat.ofDigitChars 10 digits 0, e - fraction.length⟩
      else none

end Decimal

namespace Weight

/-- A magnitude too large to be finite is infinite. -/
def ofDecimal (negative : Bool) (d : Decimal) : Weight :=
  match d.toMagnitude? with
  | some m => .finite negative m
  | none => .infinite negative

/-- The words that stand for a weight without digits. -/
def readWord? (negative : Bool) (cs : List Char) : Option Weight :=
  let word := cs.map Char.toLower
  if word = "inf".toList ∨ word = "infinity".toList then some (.infinite negative)
  else if word = "nan".toList then some .nan
  else none

def read? (cs : List Char) : Option Weight :=
  let negative := cs.head? == some '-'
  let body := if cs.head? == some '-' || cs.head? == some '+' then cs.tail else cs
  match Decimal.read? body with
  | some d => some (ofDecimal negative d)
  | none => readWord? negative body

def render : Weight → List Char
  | .nan => "NaN".toList
  | .infinite false => "Infinity".toList
  | .infinite true => "-inf".toList
  | .finite negative m =>
    (if negative then ['-'] else []) ++ (Decimal.shortest m).positional

def text (w : Weight) : String := String.ofList w.render

end Weight

end WildcardNet
