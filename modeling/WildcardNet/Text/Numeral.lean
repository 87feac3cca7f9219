/-!
# Numerals

Decimal numerals as they stand in text: ASCII digits only, leading zeros allowed.
-/

namespace WildcardNet.Text

/-- The number written by a non-empty run of digits. -/
def readNat? (cs : List Char) : Option Nat :=
  if cs ≠ [] ∧ cs.all Char.isDigit then some (Nat.ofDigitChars 10 cs 0) else none

/-- Drops one leading plus sign. -/
def dropPlus : List Char → List Char
  | '+' :: cs => cs
  | cs => cs

/-- A number of at most 32 bits, with an optional plus sign. -/
def readUInt32? (cs : List Char) : Option UInt32 :=
  (readNat? (dropPlus cs)).bind fun n => if n < UInt32.size then some (UInt32.ofNat n) else none

/-- The shortest numeral of a number. -/
def numeral (n : Nat) : List Char := Nat.toDigits 10 n

theorem isDigit_of_mem_numeral {n : Nat} {c : Char} (h : c ∈ numeral n) : c.isDigit = true :=
  Nat.isDigit_of_mem_toDigits (by decide) (by decide) h

theorem numeral_ne_nil (n : Nat) : numeral n ≠ [] := Nat.toDigits_ne_nil

theorem readNat?_numeral (n : Nat) : readNat? (numeral n) = some n := by
  have hdigits : (numeral n).all Char.isDigit = true :=
    List.all_eq_true.mpr fun _ hc => isDigit_of_mem_numeral hc
  rw [readNat?, if_pos ⟨numeral_ne_nil n, hdigits⟩, numeral, Nat.ofDigitChars_ten_toDigits]

end WildcardNet.Text
