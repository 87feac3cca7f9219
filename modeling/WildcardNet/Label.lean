/-!
# Labels and their roles

Arcs carry labels on two sides. Some labels have a role: epsilon stands for no symbol, the
identity wildcard for one unknown symbol read on both sides, the non-identity wildcard for any
unknown symbol, and an alternation rule uses a separator and a hard epsilon. Every other label is
a concrete symbol. The checks in this file keep the roles apart and report the first offence.
-/

namespace WildcardNet

abbrev Label := UInt32

namespace Label

/-- The label that reads no symbol. -/
def epsilon : Label := 0

end Label

/-- The labels chosen for the two wildcards. -/
structure Wildcards where
  identity : Label
  other : Label
deriving DecidableEq, Repr

/-- The labels an alternation rule uses between its two halves. -/
structure RuleMarks where
  separator : Label
  hardEpsilon : Label
deriving DecidableEq, Repr

/-- A role that a label can be asked to play. -/
inductive Role
  | identityWildcard
  | otherWildcard
  | separator
  | hardEpsilon
deriving DecidableEq, Repr

/-- Why a choice of labels is refused. -/
inductive LabelError
  | roleIsEpsilon (role : Role)
  | wildcardsEqual (label : Label)
  | roleIsWildcard (role : Role) (label : Label)
  | ruleMarksEqual (label : Label)
  | notASymbol (symbol : Label)
  | repeatedSymbol (symbol : Label)
deriving DecidableEq, Repr

def Role.name : Role → String
  | .identityWildcard => "OTHER_ID"
  | .otherWildcard => "OTHER_NONID"
  | .separator => "rule separator"
  | .hardEpsilon => "hard epsilon"

def LabelError.message : LabelError → String
  | .roleIsEpsilon role => role.name ++ " label must not be epsilon"
  | .wildcardsEqual label => "OTHER_ID and OTHER_NONID share the label " ++ label.toNat.repr
  | .roleIsWildcard role label =>
    role.name ++ " label " ++ label.toNat.repr ++ " collides with a wildcard label"
  | .ruleMarksEqual label =>
    "rule separator and hard epsilon share the label " ++ label.toNat.repr
  | .notASymbol symbol =>
    "alphabet symbol " ++ symbol.toNat.repr ++ " is epsilon or a wildcard label"
  | .repeatedSymbol symbol =>
    "alphabet symbol " ++ symbol.toNat.repr ++ " appears more than once"

/-! ### Wildcards -/

namespace Wildcards

def isWildcard (w : Wildcards) (label : Label) : Bool :=
  label == w.identity || label == w.other

/-- A concrete symbol is neither epsilon nor a wildcard. -/
def isConcrete (w : Wildcards) (label : Label) : Bool :=
  label != Label.epsilon && !w.isWildcard label

/-- The identity wildcard may only be paired with itself. -/
def isDisallowedPair (w : Wildcards) (input output : Label) : Bool :=
  decide (¬ (input = w.identity ↔ output = w.identity))

/-- Neither wildcard is epsilon, and the two differ. -/
def check (w : Wildcards) : Except LabelError Unit :=
  if w.identity = Label.epsilon then .error (.roleIsEpsilon .identityWildcard)
  else if w.other = Label.epsilon then .error (.roleIsEpsilon .otherWildcard)
  else if w.identity = w.other then .error (.wildcardsEqual w.identity)
  else .ok ()

theorem isWildcard_eq_true_iff {w : Wildcards} {label : Label} :
    w.isWildcard label = true ↔ label = w.identity ∨ label = w.other := by
  simp [isWildcard]

theorem isConcrete_eq_true_iff {w : Wildcards} {label : Label} :
    w.isConcrete label = true ↔
      label ≠ Label.epsilon ∧ label ≠ w.identity ∧ label ≠ w.other := by
  simp [isConcrete, isWildcard]

theorem isDisallowedPair_eq_false_iff {w : Wildcards} {input output : Label} :
    w.isDisallowedPair input output = false ↔ (input = w.identity ↔ output = w.identity) := by
  simp [isDisallowedPair]

theorem check_eq_ok_iff {w : Wildcards} :
    w.check = .ok () ↔
      w.identity ≠ Label.epsilon ∧ w.other ≠ Label.epsilon ∧ w.identity ≠ w.other := by
  unfold check
  split
  · simp_all
  · split
    · simp_all
    · split <;> simp_all

end Wildcards

/-! ### Rule marks -/

namespace RuleMarks

/-- The label in the given role is neither epsilon nor a wildcard. -/
def checkRole (w : Wildcards) (role : Role) (label : Label) : Except LabelError Unit :=
  if label = Label.epsilon then .error (.roleIsEpsilon role)
  else if w.isWildcard label then .error (.roleIsWildcard role label)
  else .ok ()

/-- Both labels are concrete, and they differ. -/
def check (r : RuleMarks) (w : Wildcards) : Except LabelError Unit := do
  checkRole w .separator r.separator
  checkRole w .hardEpsilon r.hardEpsilon
  if r.separator = r.hardEpsilon then .error (.ruleMarksEqual r.separator) else .ok ()

/-- Reads a hard epsilon as an epsilon. -/
def weaken (r : RuleMarks) (label : Label) : Label :=
  if label = r.hardEpsilon then Label.epsilon else label

theorem checkRole_eq_ok_iff {w : Wildcards} {role : Role} {label : Label} :
    checkRole w role label = .ok () ↔ w.isConcrete label = true := by
  unfold checkRole
  split
  · simp_all [Wildcards.isConcrete]
  · split <;> simp_all [Wildcards.isConcrete]

theorem check_eq_ok_iff {r : RuleMarks} {w : Wildcards} :
    r.check w = .ok () ↔
      w.isConcrete r.separator = true ∧ w.isConcrete r.hardEpsilon = true ∧
        r.separator ≠ r.hardEpsilon := by
  rw [← @checkRole_eq_ok_iff w .separator, ← @checkRole_eq_ok_iff w .hardEpsilon, check]
  cases checkRole w .separator r.separator with
  | error e => simp [bind, Except.bind]
  | ok =>
    cases checkRole w .hardEpsilon r.hardEpsilon with
    | error e => simp [bind, Except.bind]
    | ok =>
      by_cases h : r.separator = r.hardEpsilon
      · simp [bind, Except.bind, h]
      · simp [bind, Except.bind, h]

end RuleMarks

/-! ### Alphabets -/

/-- Goes through the symbols with those already `seen` in hand, and stops at the first one that
is not concrete or has been seen. -/
def checkSymbols (w : Wildcards) (seen : List Label) : List Label → Except LabelError Unit
  | [] => .ok ()
  | symbol :: rest =>
    if w.isConcrete symbol then
      if symbol ∈ seen then .error (.repeatedSymbol symbol)
      else checkSymbols w (symbol :: seen) rest
    else .error (.notASymbol symbol)

/-- An alphabet lists concrete symbols, each once. -/
def checkAlphabet (w : Wildcards) (symbols : List Label) : Except LabelError (List Label) :=
  (checkSymbols w [] symbols).map fun _ => symbols

theorem checkSymbols_eq_ok_iff {w : Wildcards} {seen symbols : List Label} :
    checkSymbols w seen symbols = .ok () ↔
      (∀ c ∈ symbols, w.isConcrete c = true ∧ c ∉ seen) ∧ symbols.Nodup := by
  induction symbols generalizing seen with
  | nil => simp [checkSymbols]
  | cons c rest ih =>
    rw [checkSymbols]
    split
    · next hc =>
      split
      · next hseen => simp [hseen]
      · next hseen =>
        rw [ih, List.forall_mem_cons, List.nodup_cons]
        simp only [List.mem_cons, not_or]
        constructor
        · rintro ⟨hrest, hnodup⟩
          exact ⟨⟨⟨hc, hseen⟩, fun d hd => ⟨(hrest d hd).1, (hrest d hd).2.2⟩⟩,
            fun hmem => (hrest c hmem).2.1 rfl, hnodup⟩
        · rintro ⟨⟨-, hrest⟩, hnot, hnodup⟩
          exact ⟨fun d hd => ⟨(hrest d hd).1, fun hdc => hnot (hdc ▸ hd), (hrest d hd).2⟩, hnodup⟩
    · next hc => simp [hc]

theorem checkAlphabet_eq_ok_iff {w : Wildcards} {symbols alphabet : List Label} :
    checkAlphabet w symbols = .ok alphabet ↔
      symbols = alphabet ∧ (∀ c ∈ symbols, w.isConcrete c = true) ∧ symbols.Nodup := by
  have h := @checkSymbols_eq_ok_iff w [] symbols
  rw [checkAlphabet]
  cases hcheck : checkSymbols w [] symbols with
  | ok u =>
    rw [hcheck] at h
    have hall := h.1 rfl
    constructor
    · intro heq
      exact ⟨by simpa [Except.map] using heq, fun c hc => (hall.1 c hc).1, hall.2⟩
    · rintro ⟨rfl, -⟩
      rfl
  | error e =>
    rw [hcheck] at h
    constructor
    · intro heq
      simp [Except.map] at heq
    · rintro ⟨rfl, hall, hnodup⟩
      exact absurd (h.2 ⟨fun c hc => ⟨hall c hc, by simp⟩, hnodup⟩) (by simp)

end WildcardNet
