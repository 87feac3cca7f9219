import WildcardNet.Proofs.Decimals
import WildcardNet.Proofs.Descriptions
import WildcardNet.Proofs.Fields
/-!
# Listings read back

The text of a listing is the lines of its entries. Reading it cuts it into lines and these into
fields, and gives the entries back, except that a zero loses its sign: the writer leaves out a
weight equal to zero. So a listing is read back whenever its entries are dense, and the outcome is
the network that they describe.
-/

namespace WildcardNet

/-! ### Zeros without sign -/

/-- Zero of either sign becomes plain zero. -/
def Weight.unsignZero (w : Weight) : Weight := if w.isOne then Weight.one else w

def Arc.unsignZero (a : Arc) : Arc := { a with weight := a.weight.unsignZero }

def Listing.Entry.unsignZero : Entry → Entry
  | .final s w => .final s w.unsignZero
  | .arc p => .arc { p with arc := p.arc.unsignZero }

/-- A network with states has a start. -/
def Network.Rooted (f : Network) : Prop := f.start = none → f.size = 0

theorem Network.Rooted.exists_start {f : Network} (h : f.Rooted) {s : StateId} (hs : s < f.size) :
    ∃ start, f.start = some start := by
  cases hstart : f.start with
  | none =>
    rw [h hstart] at hs
    exact absurd hs (Nat.not_lt_zero s)
  | some start => exact ⟨start, rfl⟩

/-! ### Words -/

namespace Text

variable {cs ds : List Char} {c : Char}

theorem words_of_not_blank (hne : cs ≠ []) (h : ∀ c ∈ cs, isBlank c = false) :
    words cs = [cs] := by
  rw [words, List.splitOnP_eq_singleton h]
  simp [hne]

theorem words_append_blank (cs ds : List Char) (hc : isBlank c = true) :
    words (cs ++ c :: ds) = words cs ++ words ds := by
  rw [words, List.splitOnP_append_cons cs ds hc, List.filter_append, words, words]

/-- Fields between tabs are found again. -/
theorem words_intercalate_tab {fields : List (List Char)}
    (h : ∀ x ∈ fields, x ≠ [] ∧ ∀ c ∈ x, isBlank c = false) :
    words (List.intercalate ['\t'] fields) = fields := by
  induction fields with
  | nil => rfl
  | cons x fields ih =>
    obtain ⟨⟨hne, hx⟩, hfields⟩ := List.forall_mem_cons.1 h
    cases fields with
    | nil => rw [List.intercalate_singleton, words_of_not_blank hne hx]
    | cons y fields =>
      have htab : isBlank '\t' = true := by decide
      rw [List.intercalate_cons_cons, List.append_assoc, List.singleton_append,
        words_append_blank _ _ htab, ih hfields, words_of_not_blank hne hx, List.singleton_append]

theorem not_blank_of_mem_numeral {n : Nat} (h : c ∈ numeral n) : isBlank c = false :=
  isBlank_eq_false_of_isDigit (isDigit_of_mem_numeral h)

theorem readUInt32?_numeral {n : Nat} (hn : n < UInt32.size) :
    readUInt32? (numeral n) = some (UInt32.ofNat n) := by
  have hplus : dropPlus (numeral n) = numeral n := by
    cases h : numeral n with
    | nil => rfl
    | cons c cs =>
      rw [dropPlus]
      intro ds hplus
      rw [hplus] at h
      exact absurd (isDigit_of_mem_numeral (h ▸ List.mem_cons_self)) (by decide)
  rw [readUInt32?, hplus, readNat?_numeral, Option.bind_some, if_pos hn]

end Text

namespace Listing

variable {e : Entry} {f g : Network} {entries : List Entry}

/-! ### Fields of an entry -/

namespace Entry

def fields : Entry → List (List Char)
  | .final s w => Text.numeral s :: weightField w
  | .arc p => [Text.numeral p.source, Text.numeral p.arc.target, Text.numeral p.arc.input.toNat,
      Text.numeral p.arc.output.toNat] ++ weightField p.arc.weight

@[simp] theorem largestState_unsignZero (e : Entry) : e.unsignZero.largestState = e.largestState := by
  cases e <;> rfl

@[simp] theorem references_unsignZero (e : Entry) : e.unsignZero.references = e.references := by
  cases e <;> rfl

@[simp] theorem source_unsignZero (e : Entry) : e.unsignZero.source = e.source := by
  cases e <;> rfl

end Entry

/-- A field is not empty and has no blanks in it. -/
def IsField (x : List Char) : Prop := x ≠ [] ∧ ∀ c ∈ x, Text.isBlank c = false

theorem isField_numeral (n : Nat) : IsField (Text.numeral n) :=
  ⟨Text.numeral_ne_nil n, fun _ hc => Text.not_blank_of_mem_numeral hc⟩

theorem isField_of_mem_weightField {w : Weight} {x : List Char} (h : x ∈ weightField w) :
    IsField x := by
  rw [weightField] at h
  split at h
  · simp at h
  · rw [List.mem_singleton.1 h]
    exact ⟨w.render_ne_nil, fun _ hc => Weight.isBlank_of_mem_render hc⟩

theorem isField_of_mem_fields (e : Entry) : ∀ x ∈ e.fields, IsField x := by
  intro x hx
  cases e with
  | final s w =>
    rcases List.mem_cons.1 hx with rfl | hx
    · exact isField_numeral s
    · exact isField_of_mem_weightField hx
  | arc p =>
    rcases List.mem_append.1 hx with hx | hx
    · simp only [List.mem_cons, List.not_mem_nil, or_false] at hx
      rcases hx with rfl | rfl | rfl | rfl
      all_goals exact isField_numeral _
    · exact isField_of_mem_weightField hx

theorem spellsWeight_weightField (w : Weight) : SpellsWeight (weightField w) w.unsignZero := by
  rw [weightField, Weight.unsignZero]
  split
  · exact .missing
  · exact .given (Weight.read?_render w)

/-- The fields of an entry spell the entry. -/
theorem spells_fields (he : e.largestState < UInt32.size) : Spells e.fields e.unsignZero := by
  cases e with
  | final s w =>
    have h := Spells.final (Text.readUInt32?_numeral he) (spellsWeight_weightField w)
    rwa [UInt32.toNat_ofNat_of_lt' he] at h
  | arc p =>
    have hsource := Nat.lt_of_le_of_lt (Nat.le_max_left _ _) he
    have htarget := Nat.lt_of_le_of_lt (Nat.le_max_right _ _) he
    have h := Spells.arc (Text.readUInt32?_numeral hsource) (Text.readUInt32?_numeral htarget)
      (Text.readUInt32?_numeral p.arc.input.toNat_lt_size)
      (Text.readUInt32?_numeral p.arc.output.toNat_lt_size) (spellsWeight_weightField p.arc.weight)
    rwa [UInt32.toNat_ofNat_of_lt' hsource, UInt32.toNat_ofNat_of_lt' htarget, UInt32.ofNat_toNat,
      UInt32.ofNat_toNat] at h

theorem readLine_fields (he : e.largestState < UInt32.size) (n : Nat) :
    readLine (some (List.intercalate ['\t'] e.fields)) n = .ok (some ⟨n, e.unsignZero⟩) := by
  have hwords := Text.words_intercalate_tab (isField_of_mem_fields e)
  have hread := readEntry_eq_ok_iff.2 (spells_fields he)
  rw [readLine]
  simp only [hwords]
  split
  · next hnil => cases e <;> simp [Entry.fields] at hnil
  · rw [hread]

/-! ### Lines of a listing -/

theorem lines_toUTF8 (cs : List Char) :
    lines (String.ofList cs).toUTF8 = (cs.splitOn '\n').map some := by
  rw [lines, Text.fromUTF8?_toUTF8]
  simp only [String.toList_ofList]

/-- A listing is written line by line. -/
theorem write_eq (f : Network) : write f = (entriesOf f).flatMap fun e => line e.fields := by
  rw [write, entriesOf]
  cases f.start with
  | none => rfl
  | some start =>
    simp only [List.flatMap_assoc]
    congr 1
    funext s
    rw [entriesAt, finalEntries, Network.final?, Network.arcsFrom, Network.arcs?]
    cases f.states[s]? with
    | none => rfl
    | some st =>
      simp only [stateLines, finalLine, Option.map_some, Option.getD_some, List.flatMap_append,
        List.flatMap_map]
      congr 1
      cases st.final.isZero <;> simp [Entry.fields]

theorem splitOn_lines (texts : List (List Char)) (h : ∀ x ∈ texts, '\n' ∉ x) :
    (texts.flatMap fun x => x ++ ['\n']).splitOn '\n' = texts ++ [[]] := by
  induction texts with
  | nil => rfl
  | cons x texts ih =>
    obtain ⟨hx, htexts⟩ := List.forall_mem_cons.1 h
    have hbreak : ∀ c ∈ x, (c == '\n') = false := by
      intro c hc
      rw [beq_eq_false_iff_ne]
      rintro rfl
      exact hx hc
    rw [List.flatMap_cons, List.append_assoc, List.singleton_append, List.splitOn,
      List.splitOnP_append_cons_of_forall_mem hbreak '\n' (by decide), ← List.splitOn, ih htexts]
    rfl

theorem newline_not_mem_fields (e : Entry) : '\n' ∉ List.intercalate ['\t'] e.fields := by
  have hfields := isField_of_mem_fields e
  intro h
  -- A line break is blank, and the fields have no blanks in them.
  have hblank : Text.isBlank '\n' = true := by decide
  generalize e.fields = fields at h hfields
  induction fields with
  | nil => simp at h
  | cons x fields ih =>
    obtain ⟨⟨-, hx⟩, hrest⟩ := List.forall_mem_cons.1 hfields
    have hnot : '\n' ∉ x := fun hmem => by simp [hx _ hmem] at hblank
    cases fields with
    | nil => exact hnot (by simpa using h)
    | cons y fields =>
      rw [List.intercalate_cons_cons, List.mem_append, List.mem_append] at h
      rcases h with (h | h) | h
      · exact hnot h
      · simp at h
      · exact ih h hrest

/-- The lines of a listing are those of its entries, and an empty one at the end. -/
theorem lines_write (f : Network) :
    lines (String.ofList (write f)).toUTF8 =
      ((entriesOf f).map fun e => some (List.intercalate ['\t'] e.fields)) ++ [some []] := by
  have hsplit := splitOn_lines ((entriesOf f).map fun e => List.intercalate ['\t'] e.fields)
  rw [List.flatMap_map] at hsplit
  rw [lines_toUTF8, write_eq]
  simp only [line]
  rw [hsplit, List.map_append, List.map_map]
  · rfl
  · intro x hx
    obtain ⟨e, -, rfl⟩ := List.mem_map.1 hx
    exact newline_not_mem_fields e

/-- The lines of entries are read as the entries, whatever number the first line has. -/
theorem mapM_readLine (entries : List Entry)
    (hsmall : ∀ e ∈ entries, e.largestState < UInt32.size) (n : Nat) :
    ∃ found, (((entries.map fun e : Entry => some (List.intercalate ['\t'] e.fields)) ++
          [some []]).zipIdx n).mapM (fun (text, line) => readLine text line) = .ok found ∧
      (found.filterMap id).map NumberedEntry.entry = entries.map Entry.unsignZero := by
  induction entries generalizing n with
  | nil => exact ⟨[none], rfl, rfl⟩
  | cons e entries ih =>
    obtain ⟨he, hentries⟩ := List.forall_mem_cons.1 hsmall
    obtain ⟨found, hfound, heq⟩ := ih hentries (n + 1)
    refine ⟨some ⟨n, e.unsignZero⟩ :: found, ?_, ?_⟩
    · rw [List.map_cons, List.cons_append, List.zipIdx_cons, List.mapM_cons, hfound]
      simp only [readLine_fields he]
      rfl
    · exact congrArg (e.unsignZero :: ·) heq

theorem exists_readEntries_write (hsmall : ∀ e ∈ entriesOf f, e.largestState < UInt32.size) :
    ∃ found, readEntries (lines (String.ofList (write f)).toUTF8) = .ok found ∧
      found.map NumberedEntry.entry = (entriesOf f).map Entry.unsignZero := by
  obtain ⟨found, hfound, heq⟩ := mapM_readLine (entriesOf f) hsmall 1
  refine ⟨found.filterMap id, ?_, heq⟩
  rw [readEntries, lines_write, hfound]
  rfl

/-! ### Reading -/

theorem lt_of_readLine {text : Option (List Char)} {n : Nat} {found : NumberedEntry}
    (h : readLine text n = .ok (some found)) : found.entry.largestState < UInt32.size := by
  cases text with
  | none => cases h
  | some cs =>
    rw [readLine] at h
    split at h
    · cases h
    · split at h
      · cases h
      · next hentry =>
        cases h
        exact (readEntry_eq_ok_iff.1 hentry).largestState_lt

theorem exists_of_mem_mapM {ε α β : Type} {f : α → Except ε β} {xs : List α} {ys : List β}
    (h : xs.mapM f = .ok ys) {y : β} (hy : y ∈ ys) : ∃ x ∈ xs, f x = .ok y := by
  induction xs generalizing ys with
  | nil =>
    cases h
    simp at hy
  | cons x xs ih =>
    rw [List.mapM_cons] at h
    obtain ⟨z, hz, h⟩ := bind_eq_ok_iff.1 h
    obtain ⟨zs, hzs, h⟩ := bind_eq_ok_iff.1 h
    cases h
    rcases List.mem_cons.1 hy with rfl | hy
    · exact ⟨x, List.mem_cons_self, hz⟩
    · obtain ⟨x', hx', heq⟩ := ih hzs hy
      exact ⟨x', List.mem_cons_of_mem x hx', heq⟩

theorem lt_of_readEntries {texts : List (Option (List Char))} {found : List NumberedEntry}
    (h : readEntries texts = .ok found) :
    ∀ e ∈ found.map NumberedEntry.entry, e.largestState < UInt32.size := by
  intro e he
  obtain ⟨n, hn, rfl⟩ := List.mem_map.1 he
  obtain ⟨all, hall, h⟩ := bind_eq_ok_iff.1 h
  cases h
  obtain ⟨_, hmem, rfl⟩ := List.mem_filterMap.1 hn
  obtain ⟨⟨text, line⟩, -, hline⟩ := exists_of_mem_mapM hall hmem
  exact lt_of_readLine hline

theorem references_eq (found : List NumberedEntry) :
    references found = named (found.map NumberedEntry.entry) := by
  have hsum : ∀ n, found.foldl (fun n e => n + e.entry.references) n =
      n + named (found.map NumberedEntry.entry) := by
    induction found with
    | nil => simp [named]
    | cons e found ih =>
      intro n
      rw [List.foldl_cons, ih]
      simp [named, Nat.add_assoc]
  rw [references, hsum, Nat.zero_add]

theorem assemble_eq (found : List NumberedEntry) :
    assemble found = describe (found.map NumberedEntry.entry) := by
  simp only [assemble, describe, stateCount, stateBound, List.foldl_map, List.head?_map,
    Option.map_map]
  rfl

/-- Reading succeeds when every line can be read and the entries are dense. -/
theorem readLines_eq_ok_iff {texts : List (Option (List Char))} :
    readLines texts = .ok g ↔ ∃ found, readEntries texts = .ok found ∧
      Dense (found.map NumberedEntry.entry) ∧ g = describe (found.map NumberedEntry.entry) := by
  rw [readLines, bind_eq_ok_iff]
  apply exists_congr
  intro found
  apply and_congr_right
  intro _
  have hdense : (found.find? fun e => references found < e.entry.largestState) = none ↔
      Dense (found.map NumberedEntry.entry) := by
    simp [Dense, references_eq]
  rw [← hdense, ← assemble_eq]
  cases hfind : found.find? fun e => references found < e.entry.largestState with
  | none => simp [hfind, eq_comm]
  | some e => simp [hfind]

theorem wellFormed_of_read {text : ByteArray} (h : read text = .ok f) : f.WellFormed := by
  obtain ⟨found, -, -, rfl⟩ := readLines_eq_ok_iff.1 h
  exact wellFormed_describe _

theorem size_le_of_read {text : ByteArray} (h : read text = .ok f) : f.size ≤ UInt32.size := by
  obtain ⟨found, hfound, -, rfl⟩ := readLines_eq_ok_iff.1 h
  rw [size_describe]
  apply Nat.le_of_not_lt
  intro hlt
  obtain ⟨e, he, hle⟩ := lt_stateBound_iff.1 hlt
  exact Nat.not_lt.2 hle (lt_of_readEntries hfound e he)

theorem rooted_of_read {text : ByteArray} (h : read text = .ok f) : f.Rooted := by
  obtain ⟨found, -, -, rfl⟩ := readLines_eq_ok_iff.1 h
  intro hstart
  cases found with
  | nil => rfl
  | cons e found => cases hstart

/-- Reads the listing of a network back. -/
def reread (f : Network) : Except ReadError Network := read (String.ofList (write f)).toUTF8

theorem dense_unsignZero_iff : Dense (entries.map Entry.unsignZero) ↔ Dense entries := by
  have hnamed : named (entries.map Entry.unsignZero) = named entries := by
    induction entries with
    | nil => rfl
    | cons e entries ih => rw [List.map_cons, named, named, Entry.references_unsignZero, ih]
  simp [Dense, hnamed]

/-- The listing of a network is read back if and only if its entries are dense, and as the network
that they describe. -/
theorem reread_eq_ok_iff (hsmall : ∀ e ∈ entriesOf f, e.largestState < UInt32.size) :
    reread f = .ok g ↔
      Dense (entriesOf f) ∧ g = describe ((entriesOf f).map Entry.unsignZero) := by
  obtain ⟨found, hfound, heq⟩ := exists_readEntries_write hsmall
  rw [reread, read, readLines_eq_ok_iff]
  simp only [hfound, Except.ok.injEq, exists_eq_left', heq, dense_unsignZero_iff]

end Listing

end WildcardNet
