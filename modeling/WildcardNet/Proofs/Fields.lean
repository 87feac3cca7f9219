import WildcardNet.Listing.Entry
/-!
# Fields of a line

What a line of a listing may hold is said by a grammar, without the reader. Fields are read as an
entry if and only if they spell it.
-/

namespace WildcardNet

theorem Text.fromUTF8?_toUTF8 (text : String) : String.fromUTF8? text.toUTF8 = some text := by
  have hutf8 : text.toUTF8.IsValidUTF8 := text.isValidUTF8
  rw [String.fromUTF8?, dif_pos hutf8]
  rfl

namespace Listing

variable {field : List Char} {fields rest : List (List Char)} {e : Entry} {w : Weight}

/-- The end of a line: a weight, or nothing, which stands for zero. -/
inductive SpellsWeight : List (List Char) → Weight → Prop
  | missing : SpellsWeight [] Weight.one
  | given {field : List Char} {w : Weight} (hw : Weight.read? field = some w) :
      SpellsWeight [field] w

/-- The fields of a line make up an entry: one state, or two states and two labels, and a weight
that may be missing. -/
inductive Spells : List (List Char) → Entry → Prop
  | final {s : List Char} {rest : List (List Char)} {state : UInt32} {w : Weight}
      (hs : Text.readUInt32? s = some state) (hw : SpellsWeight rest w) :
      Spells (s :: rest) (.final state.toNat w)
  | arc {s t i o : List Char} {rest : List (List Char)} {source target : UInt32}
      {input output : Label} {w : Weight} (hs : Text.readUInt32? s = some source)
      (ht : Text.readUInt32? t = some target) (hi : Text.readUInt32? i = some input)
      (ho : Text.readUInt32? o = some output) (hw : SpellsWeight rest w) :
      Spells (s :: t :: i :: o :: rest) (.arc ⟨source.toNat, ⟨input, output, w, target.toNat⟩⟩)

theorem Spells.largestState_lt (h : Spells fields e) : e.largestState < UInt32.size := by
  cases h with
  | @final _ _ state => exact state.toNat_lt_size
  | @arc _ _ _ _ _ source target => exact Nat.max_lt.2 ⟨source.toNat_lt_size, target.toNat_lt_size⟩

/-! ### Reading fields -/

theorem bind_eq_ok_iff {ε α β : Type} {x : Except ε α} {f : α → Except ε β} {b : β} :
    x >>= f = .ok b ↔ ∃ a, x = .ok a ∧ f a = .ok b := by
  cases x with
  | error e => simp [bind, Except.bind]
  | ok a => simp [bind, Except.bind]

theorem readState_eq_ok_iff {s : StateId} :
    readState field = .ok s ↔ ∃ n, Text.readUInt32? field = some n ∧ n.toNat = s := by
  rw [readState]
  cases Text.readUInt32? field <;> simp

theorem readLabel_eq_ok_iff {l : Label} :
    readLabel field = .ok l ↔ Text.readUInt32? field = some l := by
  rw [readLabel]
  cases Text.readUInt32? field <;> simp

theorem readWeight_eq_ok_iff : readWeight field = .ok w ↔ SpellsWeight [field] w := by
  rw [readWeight]
  constructor
  · intro h
    split at h
    · next hw =>
      cases h
      exact .given hw
    · cases h
  · intro h
    cases h with
    | given hw => rw [hw]

theorem missing_weight_iff : .ok Weight.one = (.ok w : Except LineFault Weight) ↔
    SpellsWeight [] w := by
  constructor
  · intro h
    cases h
    exact .missing
  · intro h
    cases h
    rfl

section Weighted

variable {weight : Except LineFault Weight} (hweight : ∀ {w}, weight = .ok w ↔ SpellsWeight rest w)

include hweight

theorem readFinal_eq_ok_iff (s : List Char) (hrest : rest.length ≤ 1) :
    readFinal s weight = .ok e ↔ Spells (s :: rest) e := by
  constructor
  · intro h
    obtain ⟨n, hn, h⟩ := bind_eq_ok_iff.1 h
    obtain ⟨w, hw, h⟩ := bind_eq_ok_iff.1 h
    obtain ⟨state, hs, rfl⟩ := readState_eq_ok_iff.1 hn
    cases h
    exact .final hs (hweight.1 hw)
  · intro h
    cases h with
    | final hs hw =>
      rw [readFinal, readState_eq_ok_iff.2 ⟨_, hs, rfl⟩, hweight.2 hw]
      rfl
    | arc => simp at hrest

theorem readArc_eq_ok_iff (s t i o : List Char) :
    readArc s t i o weight = .ok e ↔ Spells (s :: t :: i :: o :: rest) e := by
  constructor
  · intro h
    obtain ⟨m, hm, h⟩ := bind_eq_ok_iff.1 h
    obtain ⟨n, hn, h⟩ := bind_eq_ok_iff.1 h
    obtain ⟨input, hi, h⟩ := bind_eq_ok_iff.1 h
    obtain ⟨output, ho, h⟩ := bind_eq_ok_iff.1 h
    obtain ⟨w, hw, h⟩ := bind_eq_ok_iff.1 h
    obtain ⟨source, hs, rfl⟩ := readState_eq_ok_iff.1 hm
    obtain ⟨target, ht, rfl⟩ := readState_eq_ok_iff.1 hn
    cases h
    exact .arc hs ht (readLabel_eq_ok_iff.1 hi) (readLabel_eq_ok_iff.1 ho) (hweight.1 hw)
  · intro h
    cases h with
    | final _ hw => cases hw
    | arc hs ht hi ho hw =>
      rw [readArc, readState_eq_ok_iff.2 ⟨_, hs, rfl⟩, readState_eq_ok_iff.2 ⟨_, ht, rfl⟩,
        readLabel_eq_ok_iff.2 hi, readLabel_eq_ok_iff.2 ho, hweight.2 hw]
      rfl

end Weighted

/-- Fields are read as an entry if and only if they spell it. -/
theorem readEntry_eq_ok_iff : readEntry fields = .ok e ↔ Spells fields e := by
  rw [readEntry.eq_def]
  split
  · exact readFinal_eq_ok_iff missing_weight_iff _ (by simp)
  · exact readFinal_eq_ok_iff readWeight_eq_ok_iff _ (by simp)
  · exact readArc_eq_ok_iff missing_weight_iff _ _ _ _
  · exact readArc_eq_ok_iff readWeight_eq_ok_iff _ _ _ _
  · next h1 h2 h4 h5 =>
    -- The grammar has lines of one, two, four and five fields only.
    refine iff_of_false (by simp) ?_
    rintro (⟨-, hw⟩ | ⟨-, -, -, -, hw⟩)
    · cases hw with
      | missing => exact h1 _ rfl
      | given => exact h2 _ _ rfl
    · cases hw with
      | missing => exact h4 _ _ _ _ rfl
      | given => exact h5 _ _ _ _ _ rfl

end Listing

end WildcardNet
