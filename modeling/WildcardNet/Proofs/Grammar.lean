import Mathlib.Data.List.Forall2
import WildcardNet.Proofs.Listings
/-!
# The grammar of listings

A text is read if its lines spell entries and the states that these name are dense, and the outcome
is the network that the entries describe, state by state. Otherwise one line is to blame. A line
that spells no entry goes before one that names a state too large, wherever the two stand: how large
a state may be is only known once all lines are read.
-/

namespace WildcardNet.Listing

/-! ### Lines -/

theorem not_spells_iff {fields : List (List Char)} :
    (¬ ∃ e, Spells fields e) ↔ ∃ fault, readEntry fields = .error fault := by
  simp only [← readEntry_eq_ok_iff]
  cases readEntry fields <;> simp

/-- The lines that are not blank, each cut into fields and with its number. -/
def fieldsFrom (first : Nat) (texts : List (List Char)) : List (List (List Char) × Nat) :=
  ((texts.map Text.words).zipIdx first).filter fun line => line.1 ≠ []

theorem fieldsFrom_cons_of_blank {cs : List Char} (h : Text.words cs = []) (first : Nat)
    (texts : List (List Char)) :
    fieldsFrom first (cs :: texts) = fieldsFrom (first + 1) texts := by
  simp [fieldsFrom, h]

theorem fieldsFrom_cons {cs : List Char} (h : Text.words cs ≠ []) (first : Nat)
    (texts : List (List Char)) :
    fieldsFrom first (cs :: texts) = (Text.words cs, first) :: fieldsFrom (first + 1) texts := by
  simp [fieldsFrom, h]

/-- The entry on a line that is not blank. -/
def readFields (line : List (List Char) × Nat) : Except ReadError NumberedEntry :=
  match readEntry line.1 with
  | .error fault => .error (.badLine line.2 fault)
  | .ok entry => .ok ⟨line.2, entry⟩

theorem readFields_eq_ok_iff {line : List (List Char) × Nat} {found : NumberedEntry} :
    readFields line = .ok found ↔ found.line = line.2 ∧ Spells line.1 found.entry := by
  obtain ⟨n, e⟩ := found
  rw [← readEntry_eq_ok_iff, readFields]
  cases readEntry line.1 with
  | error fault => simp
  | ok d => simp [eq_comm]

theorem readFields_eq_error_iff {line : List (List Char) × Nat} {err : ReadError} :
    readFields line = .error err ↔
      ∃ fault, readEntry line.1 = .error fault ∧ err = .badLine line.2 fault := by
  rw [readFields]
  cases readEntry line.1 with
  | error fault => simp [eq_comm]
  | ok d => simp

theorem readLine_of_blank {cs : List Char} (h : Text.words cs = []) (n : Nat) :
    readLine (some cs) n = .ok none := by
  rw [readLine]
  split
  · rfl
  · contradiction

theorem readLine_of_fields {cs : List Char} (h : Text.words cs ≠ []) (n : Nat) :
    readLine (some cs) n = (readFields (Text.words cs, n)).map some := by
  rw [readLine, readFields]
  split
  · contradiction
  · cases readEntry (Text.words cs) <;> rfl

theorem map_mapM_readLine (texts : List (List Char)) (first : Nat) :
    (((texts.map some).zipIdx first).mapM fun (text, line) => readLine text line).map
        (List.filterMap id) =
      (fieldsFrom first texts).mapM readFields := by
  induction texts generalizing first with
  | nil => rfl
  | cons cs texts ih =>
    rw [List.map_cons, List.zipIdx_cons, List.mapM_cons]
    by_cases h : Text.words cs = []
    · rw [fieldsFrom_cons_of_blank h, ← ih]
      simp only [readLine_of_blank h]
      generalize List.mapM (m := Except ReadError) _ ((texts.map some).zipIdx (first + 1)) = found
      cases found <;> rfl
    · rw [fieldsFrom_cons h, List.mapM_cons, ← ih]
      simp only [readLine_of_fields h]
      generalize List.mapM (m := Except ReadError) _ ((texts.map some).zipIdx (first + 1)) = found
      cases readFields (Text.words cs, first) <;> cases found <;> rfl

/-- Blank lines are counted, but not read. -/
theorem readEntries_map_some (texts : List (List Char)) :
    readEntries (texts.map some) = (fieldsFrom 1 texts).mapM readFields := by
  rw [← map_mapM_readLine, readEntries]
  generalize List.mapM (m := Except ReadError) _ ((texts.map some).zipIdx 1) = found
  cases found <;> rfl

/-! ### The first failure -/

section Steps

variable {ε α β : Type} {f : α → Except ε β} {p : α → Prop} {xs : List α} {ys : List β} {err : ε}

/-- The first item of a list with a property. -/
def IsFirst (p : α → Prop) (items : List α) (x : α) : Prop :=
  p x ∧ ∃ before after, items = before ++ x :: after ∧ ∀ y ∈ before, ¬ p y

theorem bind_eq_error_iff {x : Except ε α} : x >>= f = .error err ↔
    x = .error err ∨ ∃ a, x = .ok a ∧ f a = .error err := by
  cases x with
  | error err' => simp [bind, Except.bind]
  | ok a => simp [bind, Except.bind]

theorem mapM_eq_ok_iff :
    xs.mapM f = .ok ys ↔ List.Forall₂ (fun x y => f x = .ok y) xs ys := by
  induction xs generalizing ys with
  | nil => cases ys <;> simp [pure, Except.pure]
  | cons x xs ih =>
    simp only [List.mapM_cons, bind_eq_ok_iff, ih]
    constructor
    · rintro ⟨y, hy, ys, hys, h⟩
      cases h
      exact .cons hy hys
    · rintro (_ | ⟨hy, hys⟩)
      exact ⟨_, hy, _, hys, rfl⟩

theorem exists_isFirst_of_mapM (hp : ∀ x, p x ↔ ∃ err, f x = .error err)
    (h : xs.mapM f = .error err) : ∃ x, IsFirst p xs x ∧ f x = .error err := by
  induction xs with
  | nil => cases h
  | cons x xs ih =>
    rw [List.mapM_cons] at h
    rcases bind_eq_error_iff.1 h with hx | ⟨y, hy, h⟩
    · exact ⟨x, ⟨(hp x).2 ⟨err, hx⟩, [], xs, rfl, by simp⟩, hx⟩
    · have hx : ¬ p x := by
        rw [hp, hy]
        simp
      rcases bind_eq_error_iff.1 h with hxs | ⟨ys, -, h⟩
      · obtain ⟨z, ⟨hz, before, after, rfl, hbefore⟩, herr⟩ := ih hxs
        exact ⟨z, ⟨hz, x :: before, after, rfl, List.forall_mem_cons.2 ⟨hx, hbefore⟩⟩, herr⟩
      · cases h

end Steps

/-! ### Texts -/

def filledLines (text : String) : List (List (List Char) × Nat) :=
  fieldsFrom 1 (text.toList.splitOn '\n')

/-- The lines of a text that are not blank spell the entries, in order. -/
def Lists (text : String) (entries : List NumberedEntry) : Prop :=
  List.Forall₂ (fun line e => e.line = line.2 ∧ Spells line.1 e.entry) (filledLines text) entries

variable {text : String} {found : List NumberedEntry} {err : ReadError}

theorem readEntries_lines (text : String) :
    readEntries (lines text.toUTF8) = (filledLines text).mapM readFields := by
  have hlines := lines_toUTF8 text.toList
  rw [String.ofList_toList] at hlines
  rw [hlines, readEntries_map_some, filledLines]

theorem readEntries_eq_ok_iff : readEntries (lines text.toUTF8) = .ok found ↔ Lists text found := by
  rw [readEntries_lines, mapM_eq_ok_iff, Lists]
  simp only [readFields_eq_ok_iff]

theorem exists_of_readEntries_eq_error (h : readEntries (lines text.toUTF8) = .error err) :
    ∃ line fault, IsFirst (fun line => ¬ ∃ e, Spells line.1 e) (filledLines text) line ∧
      readEntry line.1 = .error fault ∧ err = .badLine line.2 fault := by
  rw [readEntries_lines] at h
  have hbad : ∀ line : List (List Char) × Nat,
      (¬ ∃ e, Spells line.1 e) ↔ ∃ err, readFields line = .error err := by
    intro line
    rw [not_spells_iff]
    constructor
    · rintro ⟨fault, hfault⟩
      exact ⟨_, readFields_eq_error_iff.2 ⟨fault, hfault, rfl⟩⟩
    · rintro ⟨err, herr⟩
      obtain ⟨fault, hfault, -⟩ := readFields_eq_error_iff.1 herr
      exact ⟨fault, hfault⟩
  obtain ⟨line, hfirst, herr⟩ := exists_isFirst_of_mapM hbad h
  obtain ⟨fault, hfault, heq⟩ := readFields_eq_error_iff.1 herr
  exact ⟨line, fault, hfirst, hfault, heq⟩

theorem exists_of_readLines_eq_error {texts : List (Option (List Char))}
    (h : readLines texts = .error err) :
    readEntries texts = .error err ∨ ∃ found e, readEntries texts = .ok found ∧
      IsFirst (fun e => named (found.map NumberedEntry.entry) < e.entry.largestState) found e ∧
      err = .badLine e.line
        (.stateOutOfRange e.entry.largestState (named (found.map NumberedEntry.entry))) := by
  rcases bind_eq_error_iff.1 h with hread | ⟨found, hread, h⟩
  · exact .inl hread
  · right
    simp only [references_eq] at h
    split at h
    · next e hfind =>
      cases h
      obtain ⟨he, before, after, hfound, hbefore⟩ := List.find?_eq_some_iff_append.1 hfind
      have hfirst : IsFirst (fun e => named (found.map NumberedEntry.entry) < e.entry.largestState)
          found e := ⟨by simpa using he, before, after, hfound, by simpa using hbefore⟩
      exact ⟨found, e, hread, hfirst, rfl⟩
    · cases h

/-! ### Networks -/

/-- The network has one more state than the largest that the entries name. It starts where the first
entry is. The arcs of a state are those of its entries, in order, and its final weight is the last
one that an entry gives to it. -/
structure Describes (entries : List Entry) (f : Network) : Prop where
  size_of_nil : entries = [] → f.size = 0
  size_of_ne_nil : entries ≠ [] → ∃ e ∈ entries, f.size = e.largestState + 1 ∧
    ∀ d ∈ entries, d.largestState ≤ e.largestState
  start_eq : f.start = entries.head?.map Entry.source
  arcsFrom_eq : ∀ s, f.arcsFrom s = entries.filterMap (Entry.arcAt s)
  final?_eq : ∀ s < f.size,
    f.final? s = some ((entries.filterMap (Entry.finalAt s)).getLast?.getD Weight.zero)

theorem exists_stateBound_eq {entries : List Entry} (h : entries ≠ []) :
    ∃ e ∈ entries, stateBound entries = e.largestState + 1 ∧
      ∀ d ∈ entries, d.largestState ≤ e.largestState := by
  obtain ⟨d, hd⟩ := List.exists_mem_of_ne_nil entries h
  have hpos : 0 < stateBound entries := lt_stateBound_iff.2 ⟨d, hd, Nat.zero_le _⟩
  have hlt : ∀ d ∈ entries, d.largestState < stateBound entries :=
    fun d hd => lt_stateBound_iff.2 ⟨d, hd, Nat.le_refl _⟩
  obtain ⟨e, he, hle⟩ := lt_stateBound_iff.1 (Nat.sub_one_lt_of_lt hpos)
  have heq : stateBound entries = e.largestState + 1 :=
    Nat.le_antisymm (Nat.le_add_of_sub_le hle) (hlt e he)
  refine ⟨e, he, heq, fun d hd => Nat.lt_add_one_iff.1 ?_⟩
  rw [← heq]
  exact hlt d hd

theorem describes_describe (entries : List Entry) : Describes entries (describe entries) where
  size_of_nil h := by rw [h]; rfl
  size_of_ne_nil h := by rw [size_describe]; exact exists_stateBound_eq h
  start_eq := rfl
  arcsFrom_eq := arcsFrom_describe entries
  final?_eq s hs := final?_describe (by simpa using hs)

theorem Describes.size_le {entries : List Entry} {f : Network} (h : Describes entries f)
    (hdense : Dense entries) : f.size ≤ named entries + 1 := by
  by_cases hnil : entries = []
  · rw [h.size_of_nil hnil]
    exact Nat.zero_le _
  · obtain ⟨e, he, hsize, -⟩ := h.size_of_ne_nil hnil
    rw [hsize]
    exact Nat.succ_le_succ (hdense e he)

/-- A text is a listing if and only if its lines that are not blank spell entries, and no entry
names a state larger than the number of times that the entries name one. The network is the one that
they describe, with at most one state more than that number. A text that is no listing is refused
for the first line that spells no entry, or if there is none, for the first one that names a state
too large. -/
theorem read_grammar (text : String) :
    ((∃ f, read text.toUTF8 = .ok f) ↔
      ∃ entries, Lists text entries ∧ Dense (entries.map NumberedEntry.entry)) ∧
    (∀ f, read text.toUTF8 = .ok f → ∃ entries, Lists text entries ∧
      Describes (entries.map NumberedEntry.entry) f ∧
      f.size ≤ named (entries.map NumberedEntry.entry) + 1) ∧
    ∀ err, read text.toUTF8 = .error err →
      (∃ line fault, IsFirst (fun line => ¬ ∃ e, Spells line.1 e) (filledLines text) line ∧
        readEntry line.1 = .error fault ∧ err = .badLine line.2 fault) ∨
      ∃ entries e, Lists text entries ∧
        IsFirst (fun e => named (entries.map NumberedEntry.entry) < e.entry.largestState)
          entries e ∧
        err = .badLine e.line
          (.stateOutOfRange e.entry.largestState (named (entries.map NumberedEntry.entry))) := by
  simp only [read, readLines_eq_ok_iff, readEntries_eq_ok_iff]
  refine ⟨?_, ?_, ?_⟩
  · constructor
    · rintro ⟨f, entries, hlists, hdense, -⟩
      exact ⟨entries, hlists, hdense⟩
    · rintro ⟨entries, hlists, hdense⟩
      exact ⟨_, entries, hlists, hdense, rfl⟩
  · rintro f ⟨entries, hlists, hdense, rfl⟩
    have hdescribes := describes_describe (entries.map NumberedEntry.entry)
    exact ⟨entries, hlists, hdescribes, hdescribes.size_le hdense⟩
  · intro err h
    rcases exists_of_readLines_eq_error h with h | ⟨entries, e, hread, hfirst, heq⟩
    · exact .inl (exists_of_readEntries_eq_error h)
    · exact .inr ⟨entries, e, readEntries_eq_ok_iff.1 hread, hfirst, heq⟩

/-- The first text has blank lines and two final lines for a state, and its start is its largest
state. In the second one the line that is no entry comes after one that names a state too large. -/
theorem read_grammar_misspelled_after_large_state :
    let text := "\n3 0 1 1\n0 inf\n\n0\n"
    let text' := "0 9 1 1\n\nx\n"
    let f : Network :=
      ⟨#[⟨Weight.one, []⟩, {}, {}, ⟨Weight.zero, [⟨1, 1, Weight.one, 0⟩]⟩], some 3⟩
    read text.toUTF8 = .ok f ∧
      (∃ entries, Lists text entries ∧ Describes (entries.map NumberedEntry.entry) f ∧
        f.size ≤ named (entries.map NumberedEntry.entry) + 1) ∧
      read text'.toUTF8 = .error (.badLine 3 (.badState ['x'])) ∧
      ∃ line, IsFirst (fun line => ¬ ∃ e, Spells line.1 e) (filledLines text') line ∧
        line.2 = 3 := by
  intro text text' f
  have hread : read text.toUTF8 = .ok f := by decide +kernel
  have hread' : read text'.toUTF8 = .error (.badLine 3 (.badState ['x'])) := by decide +kernel
  obtain ⟨-, hok, -⟩ := read_grammar text
  obtain ⟨-, -, herror⟩ := read_grammar text'
  refine ⟨hread, hok f hread, hread', ?_⟩
  rcases herror _ hread' with ⟨line, fault, hfirst, -, heq⟩ | ⟨entries, e, -, -, heq⟩
  · obtain ⟨hline, -⟩ := ReadError.badLine.inj heq
    exact ⟨line, hfirst, hline.symm⟩
  · obtain ⟨-, hfault⟩ := ReadError.badLine.inj heq
    cases hfault

end WildcardNet.Listing
