import WildcardNet.Options
import WildcardNet.Proofs.Fields
import WildcardNet.Proofs.SettingsFiles
/-!
# Options before files

Settings are put together field by field: a label that an option gives takes the place of the one in
the settings file, and the two marks of a rule may come from different places. Only what comes out of
this is checked. So settings that are resolved have passed the check, and of the file nothing counts
but the fields that no option gives.
-/

namespace WildcardNet

theorem mapError_eq_ok_iff {ε δ α : Type} {x : Except ε α} {g : ε → δ} {a : α} :
    x.mapError g = .ok a ↔ x = .ok a := by
  cases x with
  | error e => constructor <;> intro h <;> cases h
  | ok v => constructor <;> intro h <;> cases h <;> rfl

namespace Options

open Listing (bind_eq_ok_iff)

variable {o : Options} {file : Option Settings} {a b c : Settings}
  {parse? : List Char → Option Settings} {environment : Option String}
  {fileAt : String → Except FileError ByteArray} {path : String}

/-! ### Merging -/

/-- Every field has the value that an option gives and, if none does, the value in the file. Without
either there is no rule, and the alphabet is empty. -/
structure Merges (o : Options) (file : Option Settings) (c : Settings) : Prop where
  identity : some c.wildcards.identity = o.identity.or (file.map fun d => d.wildcards.identity)
  other : some c.wildcards.other = o.other.or (file.map fun d => d.wildcards.other)
  separator : c.rule.map RuleMarks.separator =
    o.separator.or ((file.bind Settings.rule).map RuleMarks.separator)
  hardEpsilon : c.rule.map RuleMarks.hardEpsilon =
    o.hardEpsilon.or ((file.bind Settings.rule).map RuleMarks.hardEpsilon)
  alphabet : c.alphabet = (o.alphabet.or (file.map Settings.alphabet)).getD []

theorem mergeRule_eq_ok_iff {separator hardEpsilon : Option Label} {rule : Option RuleMarks} :
    mergeRule separator hardEpsilon = .ok rule ↔
      rule.map RuleMarks.separator = separator ∧ rule.map RuleMarks.hardEpsilon = hardEpsilon := by
  constructor
  · intro h
    cases separator <;> cases hardEpsilon <;> cases h <;> exact ⟨rfl, rfl⟩
  · rintro ⟨rfl, rfl⟩
    cases rule <;> rfl

theorem merge_eq_ok_iff : o.merge file = .ok c ↔ o.Merges file c := by
  simp only [merge, Option.orElse_eq_orElse, Option.orElse_eq_or]
  constructor
  · intro h
    split at h
    next hidentity hother =>
      obtain ⟨rule, hrule, h⟩ := bind_eq_ok_iff.1 h
      cases h
      obtain ⟨hseparator, hhard⟩ := mergeRule_eq_ok_iff.1 hrule
      exact ⟨hidentity.symm, hother.symm, hseparator, hhard, rfl⟩
    next => contradiction
  · intro h
    rw [← h.identity, ← h.other]
    exact bind_eq_ok_iff.2 ⟨c.rule, mergeRule_eq_ok_iff.2 ⟨h.separator, h.hardEpsilon⟩,
      by rw [← h.alphabet]; rfl⟩

theorem settings_eq_ok_iff : o.settings file = .ok c ↔ c.check = .ok () ∧ o.Merges file c := by
  constructor
  · intro h
    obtain ⟨d, hmerge, h⟩ := bind_eq_ok_iff.1 h
    obtain ⟨⟨⟩, hcheck, h⟩ := bind_eq_ok_iff.1 h
    cases h
    exact ⟨mapError_eq_ok_iff.1 hcheck, merge_eq_ok_iff.1 (mapError_eq_ok_iff.1 hmerge)⟩
  · rintro ⟨hcheck, hmerge⟩
    have hchecked := (mapError_eq_ok_iff (g := Failure.label)).2 hcheck
    exact bind_eq_ok_iff.2 ⟨c, mapError_eq_ok_iff.2 (merge_eq_ok_iff.2 hmerge),
      bind_eq_ok_iff.2 ⟨(), hchecked, rfl⟩⟩

/-! ### The file that counts -/

/-- The settings file in force is the one that an option names and, if none does, the one that the
environment names. -/
inductive InForce (o : Options) (parse? : List Char → Option Settings)
    (environment : Option String) (fileAt : String → Except FileError ByteArray) :
    Option Settings → Prop
  | config {path : String} {c : Settings} (named : o.configPath = some path)
      (read : readSettings parse? fileAt path = .ok c) :
      InForce o parse? environment fileAt (some c)
  | environment {path : String} {c : Settings} (unnamed : o.configPath = none)
      (named : environment = some path) (read : readSettings parse? fileAt path = .ok c) :
      InForce o parse? environment fileAt (some c)
  | none (unnamed : o.configPath = none) (unset : environment = none) :
      InForce o parse? environment fileAt none

theorem InForce.resolve_eq (h : o.InForce parse? environment fileAt file) :
    o.resolve parse? environment fileAt = o.settings file := by
  cases h with
  | config named read =>
    simp [resolve, settingsPath, named, read, bind, Except.bind]
  | environment unnamed named read =>
    simp [resolve, settingsPath, unnamed, named, read, bind, Except.bind]
  | none unnamed unset => simp [resolve, settingsPath, unnamed, unset]

theorem exists_inForce_of_resolve_eq_ok (h : o.resolve parse? environment fileAt = .ok c) :
    ∃ file, o.InForce parse? environment fileAt file := by
  cases hconfig : o.configPath with
  | some path =>
    simp only [resolve, settingsPath, hconfig] at h
    obtain ⟨d, hread, -⟩ := bind_eq_ok_iff.1 h
    exact ⟨some d, .config hconfig hread⟩
  | none =>
    cases environment with
    | none => exact ⟨none, .none hconfig rfl⟩
    | some path =>
      simp only [resolve, settingsPath, hconfig] at h
      obtain ⟨d, hread, -⟩ := bind_eq_ok_iff.1 h
      exact ⟨some d, .environment hconfig rfl hread⟩

theorem readSettings_of_parse? {text : List Char}
    (hfile : fileAt path = .ok (String.ofList text).toUTF8)
    (hparse : parse? text = some c) : readSettings parse? fileAt path = .ok c := by
  refine bind_eq_ok_iff.2 ⟨_, mapError_eq_ok_iff.2 hfile, ?_⟩
  simp only [Text.fromUTF8?_toUTF8, String.toList_ofList, hparse]

/-! ### Fields that options replace -/

/-- Settings that have the same value in every field that no option gives. -/
structure AgreeBeside (o : Options) (a b : Settings) : Prop where
  identity : o.identity = none → a.wildcards.identity = b.wildcards.identity
  other : o.other = none → a.wildcards.other = b.wildcards.other
  separator : o.separator = none →
    a.rule.map RuleMarks.separator = b.rule.map RuleMarks.separator
  hardEpsilon : o.hardEpsilon = none →
    a.rule.map RuleMarks.hardEpsilon = b.rule.map RuleMarks.hardEpsilon
  alphabet : o.alphabet = none → a.alphabet = b.alphabet

theorem or_eq_or_of_eq_none {α : Type} {x y z : Option α} (h : x = none → y = z) :
    x.or y = x.or z := by
  cases x with
  | none => exact congrArg _ (h rfl)
  | some v => rfl

/-- A file counts in its fields beside the options only, also when the outcome is a failure. -/
theorem AgreeBeside.merge_eq (h : o.AgreeBeside a b) : o.merge (some a) = o.merge (some b) := by
  have hidentity := or_eq_or_of_eq_none fun hnone => congrArg some (h.identity hnone)
  have hother := or_eq_or_of_eq_none fun hnone => congrArg some (h.other hnone)
  have hseparator := or_eq_or_of_eq_none h.separator
  have hhard := or_eq_or_of_eq_none h.hardEpsilon
  have halphabet := or_eq_or_of_eq_none fun hnone => congrArg some (h.alphabet hnone)
  simp only [merge, Option.orElse_eq_orElse, Option.orElse_eq_or, Option.map_some, Option.bind_some,
    hidentity, hother, hseparator, hhard, halphabet]

theorem AgreeBeside.settings_eq (h : o.AgreeBeside a b) :
    o.settings (some a) = o.settings (some b) := by
  rw [settings, settings, h.merge_eq]

/-- What is resolved are exactly the settings that pass the check and have, in every field, the
option's value or else that of the file in force. Two files that can be read and agree in the fields
beside the options come out the same, whatever they hold in the others. Which settings a text holds
is for the reader of settings to say. -/
theorem resolve_eq_ok_iff_and_eq_of_agreeBeside (o : Options)
    (parse? : List Char → Option Settings) (environment : Option String)
    (fileAt : String → Except FileError ByteArray) :
    (∀ c, o.resolve parse? environment fileAt = .ok c ↔
      c.check = .ok () ∧ ∃ file, o.InForce parse? environment fileAt file ∧ o.Merges file c) ∧
    ∀ environment' fileAt' a b, o.InForce parse? environment fileAt (some a) →
      o.InForce parse? environment' fileAt' (some b) → o.AgreeBeside a b →
      o.resolve parse? environment fileAt = o.resolve parse? environment' fileAt' := by
  refine ⟨fun c => ⟨fun h => ?_, ?_⟩, fun environment' fileAt' a b ha hb hagree => ?_⟩
  · obtain ⟨file, hforce⟩ := exists_inForce_of_resolve_eq_ok h
    rw [hforce.resolve_eq] at h
    obtain ⟨hcheck, hmerges⟩ := settings_eq_ok_iff.1 h
    exact ⟨hcheck, file, hforce, hmerges⟩
  · rintro ⟨hcheck, file, hforce, hmerges⟩
    rw [hforce.resolve_eq]
    exact settings_eq_ok_iff.2 ⟨hcheck, hmerges⟩
  · rw [ha.resolve_eq, hb.resolve_eq, hagree.settings_eq]

theorem resolve_eq_ok_iff_and_eq_of_agreeBeside_wrong_labels :
    let o : Options :=
      { configPath := some "given", identity := some 100, separator := some 300,
        alphabet := some [7] }
    let a : Settings := ⟨⟨0, 101⟩, some ⟨0, 201⟩, [5, 5]⟩
    let b : Settings := ⟨⟨101, 101⟩, some ⟨201, 201⟩, [101]⟩
    let c : Settings := ⟨⟨100, 101⟩, some ⟨300, 201⟩, [7]⟩
    let parse? := Settings.parse? Json.format
    let holding (d : Settings) (path : String) : Except FileError ByteArray :=
      if path = "given" then .ok (String.ofList (d.render Json.format)).toUTF8
      else .error .missing
    a.check = .error (.roleIsEpsilon .identityWildcard) ∧
      b.check = .error (.wildcardsEqual 101) ∧ c.check = .ok () ∧
      o.InForce parse? (some "absent") (holding a) (some a) ∧
      o.InForce parse? none (holding b) (some b) ∧ o.AgreeBeside a b ∧
      o.resolve parse? (some "absent") (holding a) = .ok c ∧
      o.resolve parse? none (holding b) = .ok c := by
  intro o a b c parse? holding
  have ha : o.InForce parse? (some "absent") (holding a) (some a) :=
    .config rfl (readSettings_of_parse? (if_pos rfl) (Settings.parse?_render Json.lawful_format _))
  have hb : o.InForce parse? none (holding b) (some b) :=
    .config rfl (readSettings_of_parse? (if_pos rfl) (Settings.parse?_render Json.lawful_format _))
  have hagree : o.AgreeBeside a b := by constructor <;> decide
  obtain ⟨hok, hsame⟩ :=
    resolve_eq_ok_iff_and_eq_of_agreeBeside o parse? (some "absent") (holding a)
  have hresolve := (hok c).2 ⟨rfl, some a, ha, by constructor <;> rfl⟩
  exact ⟨rfl, rfl, rfl, ha, hb, hagree, hresolve,
    (hsame none (holding b) a b ha hb hagree).symm.trans hresolve⟩

end Options

end WildcardNet
