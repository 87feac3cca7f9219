import Mathlib.Data.List.TakeWhile
import WildcardNet.Json.Format
import WildcardNet.Proofs.Listings
/-!
# JSON without blanks

A value is written as its tokens one after another, with nothing between them. Text of this kind is
read back to the value in two stages. A token is recognised whatever comes behind it, a number
excepted, which must not run on; in a written value a number ends at a comma or a closing bracket.
The tokens of a value are then taken apart along its structure, and there is fuel enough for both.
With the look-up of members by name this makes JSON a format that settings can rely on.
-/

namespace WildcardNet

namespace Text

theorem eq_zero_of_head_numeral {n : Nat} (h : (numeral n).head? = some '0') : n = 0 := by
  induction n using Nat.strongRecOn with
  | ind n ih =>
    rcases Nat.lt_or_ge n 10 with hn | hn
    · rw [numeral, Nat.toDigits_of_lt_base hn, List.head?_cons, Option.some_inj] at h
      have hdigit : ∀ d < 10, Nat.digitChar d = '0' → d = 0 := by decide
      exact hdigit n hn h
    · rw [numeral, Nat.toDigits_of_base_le (by decide) hn,
        List.head?_append_of_ne_nil _ Nat.toDigits_ne_nil] at h
      have hrest := ih (n / 10) (by omega) h
      omega

theorem exists_numeral_eq_cons (n : Nat) : ∃ c cs, numeral n = c :: cs ∧ c.isDigit = true := by
  cases h : numeral n with
  | nil => exact absurd h (numeral_ne_nil n)
  | cons c cs => exact ⟨c, cs, rfl, isDigit_of_mem_numeral (h ▸ List.mem_cons_self)⟩

end Text

namespace Json

/-! ### Tokens as they are written -/

/-- A character that stands for itself in a string. -/
def isPlain (c : Char) : Bool := 0x20 ≤ c.toNat && c != '"' && c != '\\'

/-- Numbers are numerals, and strings need no escapes. -/
def Token.IsPlain : Token → Prop
  | .number literal => ∃ n, literal = Text.numeral n
  | .string text => ∃ cs, text = some cs ∧ cs.all isPlain = true
  | _ => True

/-- Nothing that a number could run on into. -/
def EndsValue (cs : List Char) : Prop := ∀ c ∈ cs.head?, c = ',' ∨ c = ']' ∨ c = '\x7d'

variable {cs rest : List Char} {c : Char} {t : Token}

theorem readPieces?_plain (h : cs.all isPlain = true) (rest : List Char) :
    readPieces? (cs ++ '"' :: rest) = some (cs.map Piece.char, rest) := by
  induction cs with
  | nil => simp [readPieces?]
  | cons c cs ih =>
    simp only [List.all_cons, isPlain, Bool.and_eq_true, decide_eq_true_eq, bne_iff_ne] at h
    obtain ⟨⟨⟨hgraphic, hquote⟩, hescape⟩, hcs⟩ := h
    have hcontrol : ¬ c.toNat < 0x20 := by omega
    simp [readPieces?, hescape, hcontrol, ih hcs]

theorem textOf?_map_char (cs : List Char) : textOf? (cs.map Piece.char) = some cs := by
  induction cs with
  | nil => rfl
  | cons c cs ih => simp [textOf?, ih]

theorem readDigits?_numeral (n : Nat) (h : EndsValue rest) :
    readDigits? (Text.numeral n ++ rest) = some (Text.numeral n, rest) := by
  have hdigits : ∀ c ∈ Text.numeral n, c.isDigit = true :=
    fun c hc => Text.isDigit_of_mem_numeral hc
  have hrest : rest.takeWhile Char.isDigit = [] ∧ rest.dropWhile Char.isDigit = rest := by
    cases rest with
    | nil => exact ⟨rfl, rfl⟩
    | cons c rest =>
      have hc : c.isDigit = false := by
        rcases h c rfl with rfl | rfl | rfl <;> rfl
      simp [hc]
  rw [readDigits?, List.takeWhile_append_of_pos hdigits, List.dropWhile_append_of_pos hdigits,
    hrest.1, hrest.2, List.append_nil, if_neg (Text.numeral_ne_nil n)]

theorem readWhole?_numeral (n : Nat) (h : EndsValue rest) :
    readWhole? (Text.numeral n ++ rest) = some (Text.numeral n, rest) := by
  have hzero : ¬ ((Text.numeral n).head? = some '0' ∧ (Text.numeral n).length ≠ 1) := by
    rintro ⟨hhead, hlength⟩
    rw [Text.eq_zero_of_head_numeral hhead] at hlength
    exact hlength rfl
  rw [readWhole?, readDigits?_numeral n h]
  exact if_neg hzero

theorem readUnsigned?_numeral (n : Nat) (h : EndsValue rest) :
    readUnsigned? (Text.numeral n ++ rest) = some (Text.numeral n, rest) := by
  have hfraction : readFraction? rest = some ([], rest) := by
    cases rest with
    | nil => rfl
    | cons c rest => rcases h c rfl with rfl | rfl | rfl <;> rfl
  have hexponent : readExponent? rest = some ([], rest) := by
    cases rest with
    | nil => rfl
    | cons c rest => rcases h c rfl with rfl | rfl | rfl <;> rfl
  simp [readUnsigned?, readWhole?_numeral n h, hfraction, hexponent]

theorem readToken?_of_isDigit (h : c.isDigit = true) (cs : List Char) :
    readToken? (c :: cs) =
      (readUnsigned? (c :: cs)).map fun (literal, rest) => (.number literal, rest) := by
  have hsign : readNumber? (c :: cs) = readUnsigned? (c :: cs) := by
    rw [readNumber?]
    rintro cs' ⟨⟩
    exact absurd h (by decide)
  rw [readToken?, hsign]
  · cases readUnsigned? (c :: cs) <;> rfl
  all_goals
    rintro cs' ⟨⟩
    exact absurd h (by decide)

theorem readToken?_text (ht : t.IsPlain) (h : (∃ literal, t = .number literal) → EndsValue rest) :
    readToken? (t.text ++ rest) = some (t, rest) := by
  cases t with
  | number literal =>
    obtain ⟨n, rfl⟩ := ht
    obtain ⟨c, cs, hnumeral, hc⟩ := Text.exists_numeral_eq_cons n
    have hread := readUnsigned?_numeral n (h ⟨_, rfl⟩)
    rw [hnumeral, List.cons_append] at hread
    rw [Token.text, hnumeral, List.cons_append, readToken?_of_isDigit hc, hread]
    rfl
  | string text =>
    obtain ⟨cs, rfl, hcs⟩ := ht
    simp [Token.text, readToken?, readPieces?_plain hcs, textOf?_map_char]
  | bool b => cases b <;> rfl
  | openBrace | closeBrace | openBracket | closeBracket | colon | comma | null => rfl

/-- The text of the tokens is read back, with one unit of fuel for each. -/
def Readable (tokens : List Token) : Prop :=
  ∀ fuel, readTokens? (fuel + tokens.length) (tokens.flatMap Token.text) = some tokens

theorem readTokens?_nil (fuel : Nat) : readTokens? fuel [] = some [] := by
  cases fuel <;> rfl

theorem readTokens?_succ {tokens : List Token} {fuel : Nat} (hspace : isSpace c = false)
    (hread : readToken? (c :: cs) = some (t, rest)) (hrest : readTokens? fuel rest = some tokens) :
    readTokens? (fuel + 1) (c :: cs) = some (t :: tokens) := by
  rw [readTokens?.eq_def]
  simp [hspace, hread, hrest]

theorem readable_nil : Readable [] := readTokens?_nil

theorem exists_text_eq_cons (ht : t.IsPlain) :
    ∃ c cs, t.text = c :: cs ∧ isSpace c = false := by
  cases t with
  | number literal =>
    obtain ⟨n, rfl⟩ := ht
    obtain ⟨c, cs, hnumeral, hc⟩ := Text.exists_numeral_eq_cons n
    refine ⟨c, cs, hnumeral, ?_⟩
    simp only [isSpace, Bool.or_eq_false_iff, beq_eq_false_iff_ne]
    refine ⟨⟨⟨?_, ?_⟩, ?_⟩, ?_⟩ <;> rintro rfl <;> exact absurd hc (by decide)
  | string text => exact ⟨_, _, rfl, rfl⟩
  | bool b => cases b <;> exact ⟨_, _, rfl, rfl⟩
  | openBrace | closeBrace | openBracket | closeBracket | colon | comma | null =>
    exact ⟨_, _, rfl, rfl⟩

theorem Readable.cons {tokens : List Token} (h : Readable tokens) (ht : t.IsPlain)
    (hnumber : (∃ literal, t = .number literal) → EndsValue (tokens.flatMap Token.text)) :
    Readable (t :: tokens) := by
  intro fuel
  obtain ⟨c, cs, htext, hc⟩ := exists_text_eq_cons ht
  have hread := readToken?_text ht hnumber
  rw [htext, List.cons_append] at hread
  rw [List.flatMap_cons, htext, List.cons_append]
  exact readTokens?_succ hc hread (h fuel)

theorem Readable.key {tokens : List Token} {key : Option (List Char)} (h : Readable tokens)
    (hkey : (Token.string key).IsPlain) : Readable (.string key :: .colon :: tokens) := by
  have hcolon := h.cons (t := .colon) trivial (by simp)
  exact hcolon.cons hkey (by simp)

/-! ### Values as they are written -/

theorem endsValue_furtherElements (elements : List Json) (after : List Token) :
    EndsValue ((furtherElements elements ++ after).flatMap Token.text) := by
  cases elements with
  | nil => rintro c ⟨⟩; exact .inr (.inl rfl)
  | cons j elements => rintro c ⟨⟩; exact .inl rfl

theorem endsValue_furtherMembers (members : List (Option (List Char) × Json))
    (after : List Token) : EndsValue ((furtherMembers members ++ after).flatMap Token.text) := by
  cases members with
  | nil => rintro c ⟨⟩; exact .inr (.inr rfl)
  | cons m members => rintro c ⟨⟩; exact .inl rfl

-- Induction on the value, with what comes behind it as a parameter: a number that stands last in a
-- value is followed by the comma or the closing bracket of the value around it.
mutual

theorem readable_tokens (j : Json) (hj : ∀ t ∈ j.tokens, t.IsPlain) {after : List Token}
    (hafter : Readable after) (hend : EndsValue (after.flatMap Token.text)) :
    Readable (j.tokens ++ after) := by
  match j with
  | .null => exact hafter.cons trivial (by simp)
  | .bool b => exact hafter.cons trivial (by simp)
  | .string text => exact hafter.cons (hj _ (by simp [tokens])) (by simp)
  | .number literal => exact hafter.cons (hj _ (by simp [tokens])) fun _ => hend
  | .array [] =>
    have hclosed := hafter.cons (t := .closeBracket) trivial (by simp)
    exact hclosed.cons (t := .openBracket) trivial (by simp)
  | .array (j :: elements) =>
    simp only [tokens, List.forall_mem_cons, List.forall_mem_append] at hj
    have helements := readable_furtherElements elements hj.2.2 hafter
    have hvalue := readable_tokens j hj.2.1 helements (endsValue_furtherElements elements after)
    simpa [tokens] using hvalue.cons (t := .openBracket) trivial (by simp)
  | .object [] =>
    have hclosed := hafter.cons (t := .closeBrace) trivial (by simp)
    exact hclosed.cons (t := .openBrace) trivial (by simp)
  | .object ((key, j) :: members) =>
    simp only [tokens, List.forall_mem_cons, List.forall_mem_append] at hj
    obtain ⟨-, hkey, -, hj, hmembers⟩ := hj
    have hvalue := readable_tokens j hj (readable_furtherMembers members hmembers hafter)
      (endsValue_furtherMembers members after)
    simpa [tokens] using (hvalue.key hkey).cons (t := .openBrace) trivial (by simp)

theorem readable_furtherElements (elements : List Json)
    (h : ∀ t ∈ furtherElements elements, t.IsPlain) {after : List Token}
    (hafter : Readable after) : Readable (furtherElements elements ++ after) := by
  match elements with
  | [] => exact hafter.cons trivial (by simp)
  | j :: elements =>
    simp only [furtherElements, List.forall_mem_cons, List.forall_mem_append] at h
    have helements := readable_furtherElements elements h.2.2 hafter
    have hvalue := readable_tokens j h.2.1 helements (endsValue_furtherElements elements after)
    simpa [furtherElements] using hvalue.cons (t := .comma) trivial (by simp)

theorem readable_furtherMembers (members : List (Option (List Char) × Json))
    (h : ∀ t ∈ furtherMembers members, t.IsPlain) {after : List Token}
    (hafter : Readable after) : Readable (furtherMembers members ++ after) := by
  match members with
  | [] => exact hafter.cons trivial (by simp)
  | (key, j) :: members =>
    simp only [furtherMembers, List.forall_mem_cons, List.forall_mem_append] at h
    obtain ⟨-, hkey, -, hj, hmembers⟩ := h
    have hvalue := readable_tokens j hj (readable_furtherMembers members hmembers hafter)
      (endsValue_furtherMembers members after)
    simpa [furtherMembers] using (hvalue.key hkey).cons (t := .comma) trivial (by simp)

end

theorem length_le_text {tokens : List Token} (h : ∀ t ∈ tokens, t.IsPlain) :
    tokens.length ≤ (tokens.flatMap Token.text).length := by
  induction tokens with
  | nil => simp
  | cons t tokens ih =>
    obtain ⟨ht, htokens⟩ := List.forall_mem_cons.1 h
    obtain ⟨c, cs, htext, -⟩ := exists_text_eq_cons ht
    have hrest := ih htokens
    rw [List.flatMap_cons, htext, List.length_append, List.length_cons, List.length_cons]
    omega

theorem tokens?_text (j : Json) (hj : ∀ t ∈ j.tokens, t.IsPlain) :
    tokens? j.text = some j.tokens := by
  have hfuel : j.tokens.length ≤ j.text.length := length_le_text hj
  have hreadable := readable_tokens j hj readable_nil (by rintro c ⟨⟩)
  have hread := hreadable (j.text.length - j.tokens.length)
  rwa [List.append_nil, Nat.sub_add_cancel hfuel] at hread

/-! ### Reading values back -/

theorem exists_tokens_eq_cons (j : Json) : ∃ t ts, j.tokens = t :: ts ∧ t ≠ .closeBracket := by
  match j with
  | .null | .bool _ | .number _ | .string _ => exact ⟨_, _, rfl, by simp⟩
  | .array [] | .array (_ :: _) => exact ⟨_, _, rfl, by simp⟩
  | .object [] | .object ((_, _) :: _) => exact ⟨_, _, rfl, by simp⟩

theorem readValue?_openBracket (fuel : Nat) (j : Json) (after : List Token) :
    readValue? (fuel + 1) (.openBracket :: (j.tokens ++ after)) =
      (readElements? fuel (j.tokens ++ after)).map fun p => (.array p.1, p.2) := by
  obtain ⟨t, ts, htokens, ht⟩ := exists_tokens_eq_cons j
  rw [htokens, List.cons_append, readValue?]
  · cases readElements? fuel (t :: (ts ++ after)) <;> rfl
  · rintro rest ⟨⟩
    exact ht rfl

-- Each step into a value costs one unit, and each element or member one more; the brackets and
-- commas between the parts pay for it.
mutual

/-- Two units of fuel for each token are enough. -/
theorem readValue?_tokens (j : Json) (fuel : Nat) (hfuel : 2 * j.tokens.length ≤ fuel)
    (after : List Token) : readValue? fuel (j.tokens ++ after) = some (j, after) := by
  match j, fuel with
  | .null, fuel + 1 => rfl
  | .bool b, fuel + 1 => rfl
  | .number literal, fuel + 1 => rfl
  | .string text, fuel + 1 => rfl
  | .array [], fuel + 1 => rfl
  | .object [], fuel + 1 => rfl
  | .array (j :: elements), fuel + 1 =>
    simp only [tokens, List.length_cons] at hfuel
    have hread := readElements?_tokens j elements fuel (by omega) after
    rw [tokens, List.cons_append, List.append_assoc, readValue?_openBracket, ← List.append_assoc,
      hread]
    rfl
  | .object ((key, j) :: members), fuel + 1 =>
    simp only [tokens, List.length_cons] at hfuel
    have hread := readMembers?_tokens key j members fuel (by omega) after
    simp only [tokens, List.cons_append] at hread ⊢
    rw [readValue?, hread]
    · rfl
    · rintro rest ⟨⟩

theorem readElements?_tokens (j : Json) (elements : List Json) (fuel : Nat)
    (hfuel : 2 * (j.tokens ++ furtherElements elements).length ≤ fuel) (after : List Token) :
    readElements? fuel (j.tokens ++ furtherElements elements ++ after) =
      some (j :: elements, after) := by
  match elements, fuel with
  | [], 0 | _ :: _, 0 => simp [furtherElements] at hfuel
  | [], fuel + 1 =>
    simp only [furtherElements, List.length_append, List.length_cons] at hfuel
    have hvalue := readValue?_tokens j fuel (by omega) (.closeBracket :: after)
    simp [readElements?, furtherElements, hvalue]
  | k :: elements, fuel + 1 =>
    simp only [furtherElements, List.length_append, List.length_cons] at hfuel
    have hvalue := readValue?_tokens j fuel (by omega)
      (.comma :: (k.tokens ++ furtherElements elements ++ after))
    have hrest := readElements?_tokens k elements fuel
      (by rw [List.length_append]; omega) after
    simp only [List.append_assoc] at hvalue hrest
    simp [readElements?, furtherElements, hvalue, hrest]

theorem readMembers?_tokens (key : Option (List Char)) (j : Json)
    (members : List (Option (List Char) × Json)) (fuel : Nat)
    (hfuel : 2 * (j.tokens ++ furtherMembers members).length ≤ fuel) (after : List Token) :
    readMembers? fuel (.string key :: .colon :: (j.tokens ++ furtherMembers members ++ after)) =
      some ((key, j) :: members, after) := by
  match members, fuel with
  | [], 0 | _ :: _, 0 => simp [furtherMembers] at hfuel
  | [], fuel + 1 =>
    simp only [furtherMembers, List.length_append, List.length_cons] at hfuel
    have hvalue := readValue?_tokens j fuel (by omega) (.closeBrace :: after)
    simp [readMembers?, furtherMembers, hvalue]
  | (key', k) :: members, fuel + 1 =>
    simp only [furtherMembers, List.length_append, List.length_cons] at hfuel
    have hvalue := readValue?_tokens j fuel (by omega)
      (.comma :: .string key' :: .colon :: (k.tokens ++ furtherMembers members ++ after))
    have hrest := readMembers?_tokens key' k members fuel
      (by rw [List.length_append]; omega) after
    simp only [List.append_assoc] at hvalue hrest
    simp [readMembers?, furtherMembers, hvalue, hrest]

end

/-- A value without escapes in its strings and with numerals for its numbers is read back from its
text. -/
theorem parse?_text (j : Json) (hj : ∀ t ∈ j.tokens, t.IsPlain) : parse? j.text = some j := by
  have hread := readValue?_tokens j (2 * j.tokens.length + 1) (by omega) []
  rw [List.append_nil] at hread
  simp [parse?, tokens?_text j hj, hread]

/-! ### Values that are put together -/

/-- All tokens of the value are written so that they are read back. -/
def IsPlain (j : Json) : Prop := ∀ t ∈ j.tokens, t.IsPlain

theorem isPlain_furtherElements {elements : List Json} (h : ∀ j ∈ elements, j.IsPlain) :
    ∀ t ∈ furtherElements elements, t.IsPlain := by
  induction elements with
  | nil => simp [furtherElements, Token.IsPlain]
  | cons j elements ih =>
    obtain ⟨hj, helements⟩ := List.forall_mem_cons.1 h
    simp only [furtherElements, List.forall_mem_cons, List.forall_mem_append]
    exact ⟨trivial, hj, ih helements⟩

theorem isPlain_array {elements : List Json} (h : ∀ j ∈ elements, j.IsPlain) :
    (Json.array elements).IsPlain := by
  cases elements with
  | nil => simp [IsPlain, tokens, Token.IsPlain]
  | cons j elements =>
    obtain ⟨hj, helements⟩ := List.forall_mem_cons.1 h
    simp only [IsPlain, tokens, List.forall_mem_cons, List.forall_mem_append]
    exact ⟨trivial, hj, isPlain_furtherElements helements⟩

theorem isPlain_of_isWord {name : String} (h : Format.isWord name = true) :
    (Token.string (some name.toList)).IsPlain := by
  refine ⟨_, rfl, List.all_eq_true.2 fun c hc => ?_⟩
  have hletter := List.all_eq_true.1 h c hc
  simp only [Bool.or_eq_true, Bool.and_eq_true, decide_eq_true_eq, beq_iff_eq] at hletter
  rcases hletter with ⟨hle, -⟩ | rfl
  · -- Quotes, backslashes and control characters all come before the letters.
    have hcode : 97 ≤ c.toNat := UInt32.le_iff_toNat_le.1 (Char.le_def.1 hle)
    simp only [isPlain, Bool.and_eq_true, decide_eq_true_eq, bne_iff_ne]
    refine ⟨⟨by omega, ?_⟩, ?_⟩
    · rintro rfl
      exact absurd hcode (by decide)
    · rintro rfl
      exact absurd hcode (by decide)
  · decide

theorem isPlain_furtherMembers {members : List (String × Json)}
    (hwords : ∀ m ∈ members, Format.isWord m.1 = true) (h : ∀ m ∈ members, m.2.IsPlain) :
    ∀ t ∈ furtherMembers (members.map fun m => (some m.1.toList, m.2)), t.IsPlain := by
  induction members with
  | nil => simp [furtherMembers, Token.IsPlain]
  | cons m members ih =>
    obtain ⟨hword, hwords⟩ := List.forall_mem_cons.1 hwords
    obtain ⟨hm, hmembers⟩ := List.forall_mem_cons.1 h
    simp only [List.map_cons, furtherMembers, List.forall_mem_cons, List.forall_mem_append]
    exact ⟨trivial, isPlain_of_isWord hword, trivial, hm, ih hwords hmembers⟩

theorem isPlain_ofRecord {members : List (String × Json)}
    (hwords : ∀ m ∈ members, Format.isWord m.1 = true) (h : ∀ m ∈ members, m.2.IsPlain) :
    (ofRecord members).IsPlain := by
  cases members with
  | nil => simp [IsPlain, ofRecord, tokens, Token.IsPlain]
  | cons m members =>
    obtain ⟨hword, hwords⟩ := List.forall_mem_cons.1 hwords
    obtain ⟨hm, hmembers⟩ := List.forall_mem_cons.1 h
    simp only [IsPlain, ofRecord, List.map_cons, tokens, List.forall_mem_cons,
      List.forall_mem_append]
    exact ⟨trivial, isPlain_of_isWord hword, trivial, hm, isPlain_furtherMembers hwords hmembers⟩

theorem isPlain_of_written {j : Json} (h : format.Written j) : j.IsPlain := by
  induction h with
  | null => simp [format, IsPlain, tokens, Token.IsPlain]
  | label l =>
    simp only [format, IsPlain, ofLabel, tokens, List.forall_mem_singleton]
    exact ⟨_, rfl⟩
  | list _ ih => exact isPlain_array ih
  | record words _ _ ih => exact isPlain_ofRecord words ih

/-! ### Looking up fields -/

theorem label?_ofLabel (label : Label) : (ofLabel label).label? = some label := by
  rw [ofLabel, label?, Text.readUInt32?_numeral label.toNat_lt_size, UInt32.ofNat_toNat]

/-- The members of a record that have a name. -/
def named (members : List (String × Json)) (name : String) : List (Option (List Char) × Json) :=
  (members.map fun m => (some m.1.toList, m.2)).filter fun m => m.1 == some name.toList

theorem named_cons (m : String × Json) (members : List (String × Json)) (name : String) :
    named (m :: members) name =
      if m.1 = name then (some m.1.toList, m.2) :: named members name else named members name := by
  by_cases h : m.1 = name
  · simp [named, h]
  · have hne : ¬ m.1.toList = name.toList := fun heq => h (String.toList_inj.1 heq)
    simp [named, h, hne]

theorem head?_named (members : List (String × Json)) (name : String) :
    (named members name).head?.map Prod.snd = members.lookup name := by
  induction members with
  | nil => rfl
  | cons m members ih =>
    rw [named_cons, List.lookup_cons]
    by_cases h : m.1 = name
    · simp [h]
    · have hne : (name == m.1) = false := by simpa using Ne.symm h
      simp [h, hne, ih]

theorem named_eq_nil {members : List (String × Json)} {name : String}
    (h : name ∉ members.map Prod.fst) : named members name = [] := by
  induction members with
  | nil => rfl
  | cons m members ih =>
    rw [List.map_cons, List.mem_cons, not_or] at h
    rw [named_cons, if_neg (Ne.symm h.1), ih h.2]

theorem length_named_le {members : List (String × Json)} (h : (members.map Prod.fst).Nodup)
    (name : String) : (named members name).length ≤ 1 := by
  induction members with
  | nil => simp [named]
  | cons m members ih =>
    rw [List.map_cons, List.nodup_cons] at h
    rw [named_cons]
    split
    · next hname => simp [named_eq_nil (hname ▸ h.1)]
    · exact ih h.2

theorem fields?_ofRecord {members : List (String × Json)} (h : (members.map Prod.fst).Nodup)
    (names : List String) :
    (ofRecord members).fields? names = some (names.map fun name => members.lookup name) := by
  have hcount : names.all (fun name => (named members name).length ≤ 1) = true := by
    simpa using fun name _ => length_named_le h name
  have hlookup : names.map (fun name => (named members name).head?.map Prod.snd) =
      names.map (fun name => members.lookup name) :=
    List.map_congr_left fun name _ => head?_named members name
  have hkeys : (members.map fun m => (some m.1.toList, m.2)).all (fun m => m.1.isSome) = true := by
    simp
  rw [ofRecord, fields?, ← hlookup]
  exact if_pos (by rw [hkeys, Bool.true_and]; exact hcount)

theorem record?_ofRecord (fields : List (Field Json)) {members : List (String × Json)}
    (h : (members.map Prod.fst).Nodup) :
    record? fields (ofRecord members) =
      fields.mapM fun field => (members.lookup field.name).or field.default? := by
  rw [record?, fields?_ofRecord h, Option.bind_eq_bind, Option.bind_some]
  induction fields with
  | nil => rfl
  | cons field fields ih => simp only [List.map_cons, List.zip_cons_cons, List.mapM_cons, ih]

theorem lawful_format : format.Lawful where
  read?_write j hj := parse?_text j (isPlain_of_written hj)
  isNull_null := rfl
  isNull_ofRecord _ := rfl
  label?_ofLabel := label?_ofLabel
  list?_ofList _ := rfl
  record?_ofRecord fields _ := record?_ofRecord fields

end Json

end WildcardNet
