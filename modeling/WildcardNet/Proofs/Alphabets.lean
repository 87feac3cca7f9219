import Mathlib.Data.Nat.Find
import WildcardNet.Label
/-!
# The first offence in an alphabet

The labels of an alphabet are checked from the front, with those that were passed in hand. While no
label offends, the ones in hand are the ones that stand before: this is what makes the first offence
in the list the one that is reported, be it a label with a role or a symbol that comes twice.
-/

namespace WildcardNet.Wildcards

variable {w : Wildcards} {before seen symbols : List Label} {k : Nat} {c : Label}

theorem isConcrete_eq_false_iff :
    w.isConcrete c = false ↔ c = Label.epsilon ∨ w.isWildcard c = true := by
  rw [isConcrete, Bool.and_eq_false_iff]
  simp

/-- The label cannot follow the given ones in an alphabet. -/
def Offends (w : Wildcards) (before : List Label) (c : Label) : Prop :=
  c = Label.epsilon ∨ w.isWildcard c = true ∨ c ∈ before

instance : Decidable (w.Offends before c) :=
  inferInstanceAs (Decidable (c = Label.epsilon ∨ w.isWildcard c = true ∨ c ∈ before))

theorem offends_iff : w.Offends before c ↔ w.isConcrete c = false ∨ c ∈ before := by
  rw [Offends, isConcrete_eq_false_iff, or_assoc]

theorem offends_reverse_iff : w.Offends before.reverse c ↔ w.Offends before c := by
  simp only [Offends, List.mem_reverse]

/-- What is wrong with a label that offends. One that has a role is reported as such even if it
comes twice. -/
def offence (w : Wildcards) (c : Label) : LabelError :=
  if c = Label.epsilon ∨ w.isWildcard c = true then .notASymbol c else .repeatedSymbol c

/-! ### One label -/

theorem checkSymbols_cons_of_not_offends (h : ¬ w.Offends seen c) (rest : List Label) :
    checkSymbols w seen (c :: rest) = checkSymbols w (c :: seen) rest := by
  rw [offends_iff, not_or, Bool.not_eq_false] at h
  rw [checkSymbols, if_pos h.1, if_neg h.2]

theorem checkSymbols_cons_of_offends (h : w.Offends seen c) (rest : List Label) :
    checkSymbols w seen (c :: rest) = .error (w.offence c) := by
  rw [offends_iff] at h
  rw [checkSymbols]
  cases hc : w.isConcrete c with
  | false => simp [offence, ← isConcrete_eq_false_iff, hc]
  | true =>
    have hseen : c ∈ seen := by simpa [hc] using h
    simp [offence, ← isConcrete_eq_false_iff, hc, hseen]

/-! ### All labels -/

/-- The label at place `k` cannot follow those before it. -/
def OffendsAt (w : Wildcards) (symbols : List Label) (k : Nat) : Prop :=
  ∃ c ∈ symbols[k]?, w.Offends (symbols.take k) c

instance : DecidablePred (w.OffendsAt symbols) := fun k =>
  inferInstanceAs (Decidable (∃ c ∈ symbols[k]?, w.Offends (symbols.take k) c))

/-- After `k` labels without an offence, exactly those are in hand. -/
theorem checkSymbols_eq_drop (h : ∀ j < k, ¬ w.OffendsAt symbols j) :
    checkSymbols w [] symbols = checkSymbols w (symbols.take k).reverse (symbols.drop k) := by
  induction k with
  | zero => rfl
  | succ k ih =>
    rw [ih fun j hj => h j (Nat.lt_succ_of_lt hj)]
    rcases Nat.lt_or_ge k symbols.length with hk | hk
    · have hfits : ¬ w.Offends (symbols.take k).reverse symbols[k] := by
        intro hoffends
        exact h k (Nat.lt_succ_self k)
          ⟨symbols[k], List.getElem?_eq_getElem hk, offends_reverse_iff.1 hoffends⟩
      rw [List.drop_eq_getElem_cons hk, checkSymbols_cons_of_not_offends hfits,
        List.take_succ_eq_append_getElem hk, List.reverse_concat]
    -- past the end of the list one more step changes nothing
    · rw [List.take_of_length_le hk, List.take_of_length_le (Nat.le_succ_of_le hk),
        List.drop_of_length_le hk, List.drop_of_length_le (Nat.le_succ_of_le hk)]

theorem checkAlphabet_of_not_offendsAt (h : ∀ j, ¬ w.OffendsAt symbols j) :
    checkAlphabet w symbols = .ok symbols := by
  rw [checkAlphabet, checkSymbols_eq_drop fun j (_ : j < symbols.length) => h j, List.drop_length]
  rfl

/-- The label at place `k` is the first that cannot follow those before it. -/
structure FirstOffence (w : Wildcards) (symbols : List Label) (k : Nat) (c : Label) : Prop where
  getElem?_eq : symbols[k]? = some c
  offends : w.Offends (symbols.take k) c
  before : ∀ j < k, ¬ w.OffendsAt symbols j

theorem exists_firstOffence (h : ∃ j, w.OffendsAt symbols j) :
    ∃ k c, w.FirstOffence symbols k c := by
  obtain ⟨c, hc, hoffends⟩ := Nat.find_spec h
  exact ⟨Nat.find h, c, hc, hoffends, fun _ => Nat.find_min h⟩

theorem FirstOffence.checkAlphabet_eq (h : w.FirstOffence symbols k c) :
    checkAlphabet w symbols = .error (w.offence c) := by
  obtain ⟨hk, hc⟩ := List.getElem?_eq_some_iff.1 h.getElem?_eq
  rw [checkAlphabet, checkSymbols_eq_drop h.before, List.drop_eq_getElem_cons hk, hc,
    checkSymbols_cons_of_offends (offends_reverse_iff.2 h.offends)]
  rfl

/-- An alphabet is accepted as it stands if it lists labels without a role, each once. Otherwise
some place is the first whose label has a role or stands at an earlier place, and that label is
reported, as one with a role if it has one and else as one that is repeated. -/
theorem checkAlphabet_up_to_first_offence (w : Wildcards) (symbols : List Label) :
    (∀ alphabet, checkAlphabet w symbols = .ok alphabet ↔
        symbols = alphabet ∧ (∀ c ∈ symbols, c ≠ Label.epsilon ∧ ¬ w.isWildcard c = true) ∧
          symbols.Nodup) ∧
      (∀ k c, w.FirstOffence symbols k c →
        checkAlphabet w symbols = .error (w.offence c)) ∧
      ((∀ alphabet, checkAlphabet w symbols ≠ .ok alphabet) →
        ∃ k c, w.FirstOffence symbols k c) := by
  refine ⟨?_, fun k c h => h.checkAlphabet_eq, ?_⟩
  · intro alphabet
    have hconcrete : ∀ c, w.isConcrete c = true ↔ c ≠ Label.epsilon ∧ ¬ w.isWildcard c = true := by
      intro c
      rw [← Bool.not_eq_false, isConcrete_eq_false_iff, not_or]
    simp only [checkAlphabet_eq_ok_iff, hconcrete]
  · intro hrefused
    apply exists_firstOffence
    by_contra hnone
    exact hrefused symbols (checkAlphabet_of_not_offendsAt (not_exists.1 hnone))

/-- A symbol comes twice before epsilon and a wildcard do. With that symbol as the wildcard it is
the first place that offends and not the second. -/
theorem checkAlphabet_up_to_first_offence_several :
    let symbols : List Label := [4, 9, 4, 0, 9, 101]
    FirstOffence ⟨100, 101⟩ symbols 2 4 ∧
      checkAlphabet ⟨100, 101⟩ symbols = .error (.repeatedSymbol 4) ∧
      FirstOffence ⟨4, 4⟩ symbols 0 4 ∧ checkAlphabet ⟨4, 4⟩ symbols = .error (.notASymbol 4) ∧
      checkAlphabet ⟨100, 101⟩ [9, 4] = .ok [9, 4] := by
  intro symbols
  have hrepeated : FirstOffence ⟨100, 101⟩ symbols 2 4 := ⟨rfl, by decide, by decide⟩
  have hrole : FirstOffence ⟨4, 4⟩ symbols 0 4 := ⟨rfl, by decide, by decide⟩
  obtain ⟨-, hfirst, -⟩ := checkAlphabet_up_to_first_offence ⟨100, 101⟩ symbols
  obtain ⟨-, hfirst', -⟩ := checkAlphabet_up_to_first_offence ⟨4, 4⟩ symbols
  obtain ⟨hok, -, -⟩ := checkAlphabet_up_to_first_offence ⟨100, 101⟩ [9, 4]
  exact ⟨hrepeated, hfirst 2 4 hrepeated, hrole, hfirst' 0 4 hrole,
    (hok [9, 4]).2 ⟨rfl, by simp [isWildcard, Label.epsilon], by decide⟩⟩

end WildcardNet.Wildcards
