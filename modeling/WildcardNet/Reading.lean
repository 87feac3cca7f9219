import WildcardNet.Network.Run
/-!
# What wildcards stand for

Relative to a set of known symbols, a wildcard stands for the concrete symbols outside the set: the
identity wildcard on both sides for one such symbol, the other wildcard on both sides for two
different ones, and the other wildcard on one side for any. All other labels stand for themselves.
-/

namespace WildcardNet

/-- A concrete symbol that is not known. -/
def Wildcards.Unknown (w : Wildcards) (known : Label → Prop) (x : Label) : Prop :=
  w.isConcrete x = true ∧ ¬ known x

/-- The label pair of an arc stands for the pair `(x, y)`. -/
def Wildcards.Reads (w : Wildcards) (known : Label → Prop) (input output x y : Label) : Prop :=
  if input = w.identity ∧ output = w.identity then w.Unknown known x ∧ y = x
  else if input = w.other ∧ output = w.other then
    w.Unknown known x ∧ w.Unknown known y ∧ x ≠ y
  else if input = w.other then w.Unknown known x ∧ y = output
  else if output = w.other then x = input ∧ w.Unknown known y
  else x = input ∧ y = output

/-- The arc reads a pair that its labels stand for. -/
def Arc.ReadsRelative (w : Wildcards) (known : Label → Prop) (a : Arc) (pair : Label × Label) :
    Prop :=
  w.Reads known a.input a.output pair.1 pair.2

/-- The arc reads its own labels and nothing else. -/
def Arc.ReadsLiterally (a : Arc) (pair : Label × Label) : Prop := pair = (a.input, a.output)

/-- Every concrete symbol on an arc of the network is known. -/
def Network.MentionsOnly (f : Network) (w : Wildcards) (known : Label → Prop) : Prop :=
  ∀ st ∈ f.states, ∀ a ∈ st.arcs,
    (w.isConcrete a.input = true → known a.input) ∧ (w.isConcrete a.output = true → known a.output)

namespace Wildcards

variable {w : Wildcards} {known : Label → Prop} {input output x y : Label}

instance [DecidablePred known] : Decidable (w.Unknown known x) :=
  inferInstanceAs (Decidable (w.isConcrete x = true ∧ ¬ known x))

instance [DecidablePred known] : Decidable (w.Reads known input output x y) := by
  unfold Reads
  infer_instance

instance [DecidablePred known] {a : Arc} {pair : Label × Label} :
    Decidable (a.ReadsRelative w known pair) :=
  inferInstanceAs (Decidable (w.Reads known a.input a.output pair.1 pair.2))

theorem isWildcard_eq_false_iff {label : Label} :
    w.isWildcard label = false ↔ label ≠ w.identity ∧ label ≠ w.other := by
  simp [isWildcard]

theorem isWildcard_of_isConcrete {label : Label} (h : w.isConcrete label = true) :
    w.isWildcard label = false :=
  isWildcard_eq_false_iff.2 (isConcrete_eq_true_iff.1 h).2

/-- The label pairs of a network in which the identity wildcard is only paired with itself. -/
theorem pair_cases (h : w.isDisallowedPair input output = false) :
    (input = w.identity ∧ output = w.identity) ∨ (input = w.other ∧ output = w.other) ∨
      (input = w.other ∧ w.isWildcard output = false) ∨
      (w.isWildcard input = false ∧ output = w.other) ∨
      (w.isWildcard input = false ∧ w.isWildcard output = false) := by
  have hiff := isDisallowedPair_eq_false_iff.1 h
  by_cases hid : input = w.identity
  · exact .inl ⟨hid, hiff.1 hid⟩
  · have hod : output ≠ w.identity := fun h => hid (hiff.2 h)
    simp only [isWildcard_eq_false_iff]
    by_cases hi : input = w.other <;> by_cases ho : output = w.other <;> simp_all

/-! ### What each kind of pair stands for -/

theorem reads_concrete (hi : w.isWildcard input = false) (ho : w.isWildcard output = false) :
    w.Reads known input output x y ↔ x = input ∧ y = output := by
  simp [Reads, isWildcard_eq_false_iff.1 hi, isWildcard_eq_false_iff.1 ho]

theorem reads_identity : w.Reads known w.identity w.identity x y ↔ w.Unknown known x ∧ y = x := by
  simp [Reads]

theorem reads_other (hw : w.identity ≠ w.other) :
    w.Reads known w.other w.other x y ↔ w.Unknown known x ∧ w.Unknown known y ∧ x ≠ y := by
  simp [Reads, hw.symm]

theorem reads_other_input (ho : w.isWildcard output = false) :
    w.Reads known w.other output x y ↔ w.Unknown known x ∧ y = output := by
  simp [Reads, isWildcard_eq_false_iff.1 ho]

theorem reads_other_output (hi : w.isWildcard input = false) :
    w.Reads known input w.other x y ↔ x = input ∧ w.Unknown known y := by
  simp [Reads, isWildcard_eq_false_iff.1 hi]

/-! ### What each side stands for -/

/-- A label by itself stands for the symbol: a wildcard for any unknown one, another label for
itself. -/
def Covers (w : Wildcards) (known : Label → Prop) (label x : Label) : Prop :=
  if w.isWildcard label then w.Unknown known x else x = label

theorem covers_of_wildcard {label : Label} (h : w.isWildcard label = true) :
    w.Covers known label x ↔ w.Unknown known x := by
  simp [Covers, h]

theorem covers_of_not_wildcard {label : Label} (h : w.isWildcard label = false) :
    w.Covers known label x ↔ x = label := by
  simp [Covers, h]

theorem covers_identity : w.Covers known w.identity x ↔ w.Unknown known x :=
  covers_of_wildcard (by simp [isWildcard])

theorem covers_other : w.Covers known w.other x ↔ w.Unknown known x :=
  covers_of_wildcard (by simp [isWildcard])

/-- An allowed pair stands for what its sides stand for, except that two identity wildcards stand
for equal symbols and two other wildcards for different ones. -/
theorem reads_iff (hw : w.identity ≠ w.other) (hpair : w.isDisallowedPair input output = false) :
    w.Reads known input output x y ↔
      (w.Covers known input x ∧ w.Covers known output y) ∧ (input = w.identity → x = y) ∧
        (input = w.other → output = w.other → x ≠ y) := by
  rcases pair_cases hpair with ⟨rfl, rfl⟩ | ⟨rfl, rfl⟩ | ⟨rfl, ho⟩ | ⟨hi, rfl⟩ | ⟨hi, ho⟩
  · rw [reads_identity, covers_identity, covers_identity]
    constructor
    · rintro ⟨hx, rfl⟩
      exact ⟨⟨hx, hx⟩, fun _ => rfl, fun h => absurd h hw⟩
    · rintro ⟨⟨hx, -⟩, heq, -⟩
      exact ⟨hx, (heq rfl).symm⟩
  · simp [reads_other hw, covers_other, hw.symm, and_assoc]
  · simp [reads_other_input ho, covers_other, covers_of_not_wildcard ho, hw.symm,
      isWildcard_eq_false_iff.1 ho]
  · simp [reads_other_output hi, covers_other, covers_of_not_wildcard hi,
      isWildcard_eq_false_iff.1 hi]
  · simp [reads_concrete hi ho, covers_of_not_wildcard hi, covers_of_not_wildcard ho,
      isWildcard_eq_false_iff.1 hi]

end Wildcards

end WildcardNet
