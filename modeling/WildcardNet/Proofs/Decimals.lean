import Mathlib.Data.List.TakeWhile
import WildcardNet.Text.Blank
import WildcardNet.Weight.Text
/-!
# Weights read back from their text

Rounding gives every magnitude back from its own value, so the search for the shortest decimal ends
with one that reads as the magnitude. Its digits, written out with a point, are read as the same
number, and the text of a weight is therefore read as the weight.
-/

namespace WildcardNet

/-! ### Rounding -/

namespace Magnitude

theorem roundDiv_mul (q : Nat) {den : Nat} (hden : 0 < den) : roundDiv (q * den) den = q := by
  have hlt : compare 0 den = .lt := Nat.compare_eq_lt.2 hden
  simp [roundDiv, Nat.mul_div_cancel q hden, hlt]

/-- The rank counts the magnitudes with smaller shifts and then goes by the mantissa. -/
theorem shift_mul_add_mantissa (m : Magnitude) :
    m.shift * Nat.pow 2 23 + m.mantissa = m.rank := by
  simp only [shift, mantissa, Nat.pow_eq]
  split <;> omega

theorem log2_mul_pow {n : Nat} (k : Nat) (hlow : Nat.pow 2 23 ≤ n) (hhigh : n < Nat.pow 2 24) :
    (n * Nat.pow 2 k).log2 = 23 + k := by
  have hpos : 0 < Nat.pow 2 k := Nat.pow_pos (by decide)
  have hne : n * Nat.pow 2 k ≠ 0 := (Nat.mul_pos (Nat.lt_of_lt_of_le (by decide) hlow) hpos).ne'
  apply (Nat.log2_eq_iff hne).2
  constructor
  · rw [Nat.pow_add]
    exact Nat.mul_le_mul_right _ hlow
  · rw [Nat.add_right_comm, Nat.pow_add]
    exact Nat.mul_lt_mul_of_pos_right hhigh hpos

/-- The shift of a magnitude can be told from its number of binary digits. -/
theorem log2_units_sub (m : Magnitude) : m.units.log2 - 23 = m.shift := by
  rcases Nat.lt_or_ge m.rank (Nat.pow 2 23) with h | h
  · -- There is nothing to shift, and the rank has at most 23 binary digits.
    have hshift : m.shift = 0 := by rw [shift, Nat.div_eq_of_lt h]
    have hunits : m.units = m.rank := by
      rw [units, hshift, mantissa, if_pos h]
      exact Nat.mul_one _
    rw [hunits, hshift]
    cases hrank : m.rank with
    | zero => rfl
    | succ n =>
      rw [hrank] at h
      have hlog : (n + 1).log2 < 23 := (Nat.log2_lt (Nat.succ_ne_zero n)).2 h
      omega
  · -- The mantissa has 24 binary digits, and the shift adds its own.
    have hmod : m.rank % Nat.pow 2 23 < Nat.pow 2 23 := Nat.mod_lt _ (by decide)
    have hmantissa : m.mantissa = Nat.pow 2 23 + m.rank % Nat.pow 2 23 := by
      rw [mantissa, if_neg (Nat.not_lt.2 h)]
    have hhigh : m.mantissa < Nat.pow 2 24 := by
      rw [hmantissa, show Nat.pow 2 24 = Nat.pow 2 23 + Nat.pow 2 23 from rfl]
      exact Nat.add_lt_add_left hmod _
    rw [units, log2_mul_pow m.shift (hmantissa ▸ Nat.le_add_right _ _) hhigh,
      Nat.add_sub_cancel_left]

/-- The value of a magnitude, given as any fraction, is rounded to the magnitude. -/
theorem nearestRank_units (m : Magnitude) {k : Nat} (hk : 0 < k) :
    nearestRank (m.units * k) (Nat.pow 2 149 * k) = m.rank := by
  have hden : 0 < Nat.pow 2 149 * k := Nat.mul_pos (Nat.pow_pos (by decide)) hk
  have hscaled : m.units * k * Nat.pow 2 149 = m.units * (Nat.pow 2 149 * k) := by
    rw [Nat.mul_assoc, Nat.mul_comm k]
  have hunits : m.units * (Nat.pow 2 149 * k) =
      m.mantissa * (Nat.pow 2 149 * k * Nat.pow 2 m.shift) := by
    rw [units, Nat.mul_assoc, Nat.mul_comm (Nat.pow 2 m.shift)]
  have hpos : 0 < Nat.pow 2 149 * k * Nat.pow 2 m.shift :=
    Nat.mul_pos hden (Nat.pow_pos (by decide))
  rw [nearestRank, hscaled, Nat.mul_div_cancel _ hden, log2_units_sub, hunits, roundDiv_mul _ hpos,
    shift_mul_add_mantissa]

theorem ofRatio?_units (m : Magnitude) {k : Nat} (hk : 0 < k) :
    ofRatio? (m.units * k) (Nat.pow 2 149 * k) = some m := by
  have hrank := nearestRank_units m hk
  simp only [ofRatio?, hrank, m.rank_lt, ↓reduceDIte]

end Magnitude

/-! ### The shortest decimal -/

namespace Decimal

theorem readsAs_exact (m : Magnitude) : (exact m).readsAs m = true := by
  have hten : Nat.pow 10 149 = Nat.pow 2 149 * Nat.pow 5 149 := Nat.mul_pow 2 5 149
  have hneg : ¬ (0 : Int) ≤ -149 := by decide
  rw [readsAs_eq_true_iff, toMagnitude?, exact, if_neg hneg, show (-(-149) : Int).toNat = 149 from rfl,
    hten]
  exact Magnitude.ofRatio?_units m (Nat.pow_pos (by decide))

theorem readsAs_searchFrom (m : Magnitude) (k : Nat) : (searchFrom m k).readsAs m = true := by
  induction k with
  | zero => exact readsAs_exact m
  | succ k ih =>
    rw [searchFrom]
    cases h : neighbour? m (k + 1 - 149) with
    | none => exact ih
    | some d => exact readsAs_of_neighbour? h

theorem toMagnitude?_shortest (m : Magnitude) : (shortest m).toMagnitude? = some m := by
  rw [shortest]
  split
  · next h =>
    rw [h]
    decide
  · exact readsAs_eq_true_iff.1 (readsAs_searchFrom m _)

/-! ### The text of a decimal -/

theorem ofDigitChars_replicate_zero (n : Nat) : Nat.ofDigitChars 10 (List.replicate n '0') 0 = 0 := by
  induction n with
  | zero => rfl
  | succ n ih =>
    rw [List.replicate_succ, Nat.ofDigitChars_cons]
    exact ih

theorem ofDigitChars_append_zeros (digits n : Nat) :
    Nat.ofDigitChars 10 (Text.numeral digits ++ List.replicate n '0') 0 =
      digits * Nat.pow 10 n := by
  rw [Nat.ofDigitChars_append, Text.numeral, Nat.ofDigitChars_ten_toDigits,
    Nat.ofDigitChars_eq_ofDigitChars_zero, ofDigitChars_replicate_zero, List.length_replicate,
    Nat.add_zero, Nat.mul_comm]
  rfl

theorem ofDigitChars_zeros_append (digits n : Nat) :
    Nat.ofDigitChars 10 (List.replicate n '0' ++ Text.numeral digits) 0 = digits := by
  rw [Nat.ofDigitChars_append, ofDigitChars_replicate_zero, Text.numeral,
    Nat.ofDigitChars_ten_toDigits]

theorem isDigit_of_mem_zeros {c : Char} {n : Nat} (h : c ∈ List.replicate n '0') :
    c.isDigit = true := by
  rw [List.eq_of_mem_replicate h]
  decide

theorem read?_digits {digits : List Char} (hne : digits ≠ [])
    (hdigits : ∀ c ∈ digits, c.isDigit = true) :
    read? digits = some ⟨Nat.ofDigitChars 10 digits 0, 0⟩ := by
  have htake : digits.takeWhile Char.isDigit = digits := List.takeWhile_eq_self_iff.2 hdigits
  have hdrop : digits.dropWhile Char.isDigit = [] := List.dropWhile_eq_nil_iff.2 hdigits
  simp [read?, htake, hdrop, hne]

theorem read?_point {whole fraction : List Char} (hne : whole ≠ [])
    (hwhole : ∀ c ∈ whole, c.isDigit = true) (hfraction : ∀ c ∈ fraction, c.isDigit = true) :
    read? (whole ++ '.' :: fraction) =
      some ⟨Nat.ofDigitChars 10 (whole ++ fraction) 0, -fraction.length⟩ := by
  have htake : (whole ++ '.' :: fraction).takeWhile Char.isDigit = whole := by
    rw [List.takeWhile_append_of_pos hwhole, List.takeWhile_cons_of_neg (by decide), List.append_nil]
  have hdrop : (whole ++ '.' :: fraction).dropWhile Char.isDigit = '.' :: fraction := by
    rw [List.dropWhile_append_of_pos hwhole, List.dropWhile_cons_of_neg (by decide)]
  have htake' : fraction.takeWhile Char.isDigit = fraction := List.takeWhile_eq_self_iff.2 hfraction
  have hdrop' : fraction.dropWhile Char.isDigit = [] := List.dropWhile_eq_nil_iff.2 hfraction
  simp [read?, htake, hdrop, htake', hdrop', hne]

/-- The digits of a decimal with a fractional part, with zeros in front so that there is one before
the point. -/
def padded (d : Decimal) : List Char :=
  List.replicate ((-d.exponent).toNat + 1 - (Text.numeral d.digits).length) '0' ++
    Text.numeral d.digits

theorem isDigit_of_mem_padded {d : Decimal} {c : Char} (h : c ∈ d.padded) : c.isDigit = true := by
  rcases List.mem_append.1 h with h | h
  · exact isDigit_of_mem_zeros h
  · exact Text.isDigit_of_mem_numeral h

theorem lt_length_padded (d : Decimal) : (-d.exponent).toNat < d.padded.length := by
  rw [padded, List.length_append, List.length_replicate]
  omega

theorem take_padded_ne_nil (d : Decimal) :
    d.padded.take (d.padded.length - (-d.exponent).toNat) ≠ [] := by
  have hlength := lt_length_padded d
  rw [Ne, ← List.length_eq_zero_iff, List.length_take]
  omega

theorem positional_of_nonneg {d : Decimal} (h : 0 ≤ d.exponent) :
    d.positional = Text.numeral d.digits ++ List.replicate d.exponent.toNat '0' := by
  rw [positional, if_pos h]

theorem positional_of_neg {d : Decimal} (h : ¬ 0 ≤ d.exponent) :
    d.positional = d.padded.take (d.padded.length - (-d.exponent).toNat) ++
      '.' :: d.padded.drop (d.padded.length - (-d.exponent).toNat) := by
  rw [positional, if_neg h]
  rfl

theorem head_positional (d : Decimal) : ∃ c cs, d.positional = c :: cs ∧ c.isDigit = true := by
  by_cases h : 0 ≤ d.exponent
  · rw [positional_of_nonneg h]
    cases hnumeral : Text.numeral d.digits with
    | nil => exact absurd hnumeral (Text.numeral_ne_nil _)
    | cons c cs =>
      exact ⟨c, _, rfl, Text.isDigit_of_mem_numeral (hnumeral ▸ List.mem_cons_self)⟩
  · rw [positional_of_neg h]
    cases hpadded : d.padded.take (d.padded.length - (-d.exponent).toNat) with
    | nil => exact absurd hpadded d.take_padded_ne_nil
    | cons c cs =>
      refine ⟨c, _, rfl, isDigit_of_mem_padded (d := d) ?_⟩
      exact List.mem_of_mem_take (hpadded ▸ List.mem_cons_self)

/-- A decimal written out is read as a decimal for the same magnitude. -/
theorem exists_read?_positional (d : Decimal) :
    ∃ e, read? d.positional = some e ∧ e.toMagnitude? = d.toMagnitude? := by
  by_cases h : 0 ≤ d.exponent
  · have hne : Text.numeral d.digits ++ List.replicate d.exponent.toNat '0' ≠ [] := by
      simp [Text.numeral_ne_nil]
    have hdigits : ∀ c ∈ Text.numeral d.digits ++ List.replicate d.exponent.toNat '0',
        c.isDigit = true := by
      intro c hc
      rcases List.mem_append.1 hc with hc | hc
      · exact Text.isDigit_of_mem_numeral hc
      · exact isDigit_of_mem_zeros hc
    refine ⟨⟨d.digits * Nat.pow 10 d.exponent.toNat, 0⟩, ?_, ?_⟩
    · rw [positional_of_nonneg h, read?_digits hne hdigits, ofDigitChars_append_zeros]
    · simp [toMagnitude?, h]
  · have hlength := lt_length_padded d
    have hfraction : (d.padded.drop (d.padded.length - (-d.exponent).toNat)).length =
        (-d.exponent).toNat := by
      rw [List.length_drop]
      omega
    refine ⟨d, ?_, rfl⟩
    rw [positional_of_neg h, read?_point d.take_padded_ne_nil (fun c hc => isDigit_of_mem_padded
      (List.mem_of_mem_take hc)) (fun c hc => isDigit_of_mem_padded (List.mem_of_mem_drop hc)),
      List.take_append_drop, hfraction, padded, ofDigitChars_zeros_append]
    congr
    omega

theorem isDigit_or_point_of_mem_positional {d : Decimal} {c : Char} (hc : c ∈ d.positional) :
    c.isDigit = true ∨ c = '.' := by
  by_cases h : 0 ≤ d.exponent
  · rw [positional_of_nonneg h] at hc
    rcases List.mem_append.1 hc with hc | hc
    · exact .inl (Text.isDigit_of_mem_numeral hc)
    · exact .inl (isDigit_of_mem_zeros hc)
  · rw [positional_of_neg h] at hc
    rcases List.mem_append.1 hc with hc | hc
    · exact .inl (isDigit_of_mem_padded (List.mem_of_mem_take hc))
    · rcases List.mem_cons.1 hc with rfl | hc
      · exact .inr rfl
      · exact .inl (isDigit_of_mem_padded (List.mem_of_mem_drop hc))

end Decimal

/-! ### The text of a weight -/

namespace Text

theorem isBlank_eq_false_of_isDigit {c : Char} (h : c.isDigit = true) : isBlank c = false := by
  have hrange : 48 ≤ c.toNat ∧ c.toNat ≤ 57 := Char.isDigit_iff_toNat.1 h
  simp only [isBlank, Bool.or_eq_false_iff, Bool.and_eq_false_iff, decide_eq_false_iff_not,
    beq_eq_false_iff_ne]
  omega

end Text

namespace Weight

/-- A sign in front of a decimal is read as the sign of the weight. -/
theorem read?_signed (negative : Bool) {c : Char} {cs : List Char} (hdigit : c.isDigit = true)
    {d : Decimal} (hread : Decimal.read? (c :: cs) = some d) :
    read? ((if negative then ['-'] else []) ++ c :: cs) = some (ofDecimal negative d) := by
  have hminus : c ≠ '-' := by
    rintro rfl
    exact absurd hdigit (by decide)
  have hplus : c ≠ '+' := by
    rintro rfl
    exact absurd hdigit (by decide)
  cases negative with
  | false => simp [read?, beq_eq_false_iff_ne.2 hminus, hplus, hread]
  | true => simp [read?, hread]

/-- The text of a weight is read as the weight. -/
theorem read?_render (w : Weight) : read? w.render = some w := by
  cases w with
  | nan => decide
  | infinite negative => cases negative <;> decide
  | finite negative m =>
    obtain ⟨c, cs, hhead, hdigit⟩ := (Decimal.shortest m).head_positional
    obtain ⟨d, hread, hmagnitude⟩ := (Decimal.shortest m).exists_read?_positional
    have hsigned := read?_signed negative hdigit (hhead ▸ hread)
    rw [← hhead] at hsigned
    calc read? (render (.finite negative m)) = some (ofDecimal negative d) := hsigned
      _ = some (.finite negative m) := by
        rw [ofDecimal, hmagnitude, Decimal.toMagnitude?_shortest]

theorem isBlank_of_mem_render {w : Weight} {c : Char} (hc : c ∈ w.render) :
    Text.isBlank c = false := by
  cases w with
  | nan =>
    have hletters : "NaN".toList.any Text.isBlank = false := by decide
    exact Bool.eq_false_iff.2 (List.any_eq_false.1 hletters c hc)
  | infinite negative =>
    have hletters : ("Infinity".toList ++ "-inf".toList).any Text.isBlank = false := by decide
    apply Bool.eq_false_iff.2
    apply List.any_eq_false.1 hletters
    cases negative with
    | false => exact List.mem_append_left _ hc
    | true => exact List.mem_append_right _ hc
  | finite negative m =>
    rcases List.mem_append.1 hc with hc | hc
    · obtain rfl : c = '-' := by cases negative <;> simp_all
      decide
    · rcases Decimal.isDigit_or_point_of_mem_positional hc with hdigit | rfl
      · exact Text.isBlank_eq_false_of_isDigit hdigit
      · decide

theorem render_ne_nil (w : Weight) : w.render ≠ [] := by
  have hnil : read? [] = none := by decide
  intro h
  have hread := w.read?_render
  rw [h, hnil] at hread
  cases hread

end Weight

end WildcardNet
