import WildcardNet.Proofs.CompactText
/-!
# Settings come back from a file

Settings are a record of records and lists, and every part of it is a value that the library of a
format reads back by one of its laws. So whatever the format is, the text that settings are written
as holds these settings and no others. JSON is one such format.
-/

namespace WildcardNet

theorem lookup_of_mem {α : Type} {members : List (String × α)} (h : (members.map Prod.fst).Nodup)
    {name : String} {v : α} (hmem : (name, v) ∈ members) : members.lookup name = some v := by
  induction members with
  | nil => cases hmem
  | cons first members ih =>
    rw [List.map_cons, List.nodup_cons] at h
    rw [List.lookup_cons]
    rcases List.mem_cons.1 hmem with rfl | hmem
    · rw [beq_self_eq_true]
    · have hne : name ≠ first.1 := fun heq => h.1 (heq ▸ List.mem_map_of_mem hmem)
      rw [beq_eq_false_iff_ne.2 hne]
      exact ih h.2 hmem

namespace Format

variable {V : Type} {F : Format V} {fields : List (Field V)} {values : List V}

/-! ### Records with all their fields -/

/-- Fields that a record can be declared with: their names are distinct words. -/
structure Declarable (fields : List (Field V)) : Prop where
  distinct : (fields.map Field.name).Nodup
  words : ∀ field ∈ fields, isWord field.name = true

theorem Declarable.nodup_zip (h : Declarable fields) (hlength : fields.length = values.length) :
    (((fields.map Field.name).zip values).map Prod.fst).Nodup := by
  rw [List.map_fst_zip (by rw [List.length_map, hlength])]
  exact h.distinct

theorem Lawful.record?_ofFields (hF : F.Lawful) (h : Declarable fields)
    (hlength : fields.length = values.length) :
    F.record? fields (F.ofFields fields values) = some values := by
  have hdistinct := h.nodup_zip hlength
  have hfields : (fields.zip values).map Prod.fst = fields := List.map_fst_zip hlength.le
  have hvalues : (fields.zip values).map Prod.snd = values := List.map_snd_zip hlength.ge
  have hlookup : ∀ p ∈ fields.zip values,
      ((((fields.map Field.name).zip values).lookup p.1.name).or p.1.default?) = some p.2 := by
    intro p hp
    have hmem : (p.1.name, p.2) ∈ (fields.map Field.name).zip values := by
      rw [List.zip_map_left]
      exact List.mem_map_of_mem hp
    rw [lookup_of_mem hdistinct hmem, Option.some_or]
  calc F.record? fields (F.ofFields fields values)
      = fields.mapM fun field =>
          (((fields.map Field.name).zip values).lookup field.name).or field.default? :=
        hF.record?_ofRecord _ _ hdistinct
    _ = ((fields.zip values).map Prod.fst).mapM fun field =>
          (((fields.map Field.name).zip values).lookup field.name).or field.default? := by
        rw [hfields]
    _ = some ((fields.zip values).map Prod.snd) := mapM_map_eq_some hlookup
    _ = some values := by rw [hvalues]

theorem Lawful.pair?_ofPair (hF : F.Lawful) (h : Declarable fields) (hlength : fields.length = 2)
    (first second : Label) :
    F.pair? fields (F.ofPair fields first second) = some (first, second) := by
  have hrecord : F.record? fields (F.ofPair fields first second) =
      some [F.ofLabel first, F.ofLabel second] := hF.record?_ofFields h hlength
  simp [pair?, hrecord, hF.label?_ofLabel]

theorem Declarable.written_ofFields (h : Declarable fields)
    (hlength : fields.length = values.length) (hvalues : ∀ v ∈ values, F.Written v) :
    F.Written (F.ofFields fields values) := by
  refine .record ?_ (h.nodup_zip hlength) ?_
  · intro m hm
    obtain ⟨field, hfield, hname⟩ := List.mem_map.1 (List.of_mem_zip hm).1
    exact hname ▸ h.words field hfield
  · intro m hm
    exact hvalues m.2 (List.of_mem_zip hm).2

theorem Declarable.written_ofPair (h : Declarable fields) (hlength : fields.length = 2)
    (first second : Label) : F.Written (F.ofPair fields first second) := by
  refine h.written_ofFields hlength ?_
  simp only [List.forall_mem_cons]
  exact ⟨.label first, .label second, by simp⟩

end Format

namespace Settings

open Format (Declarable)

variable {V : Type} {F : Format V}

/-! ### Declarations -/

theorem declarable_wildcardsFields : Declarable (wildcardsFields (V := V)) where
  distinct := by simp [wildcardsFields]
  words := by
    simp only [wildcardsFields, List.forall_mem_cons]
    exact ⟨by decide, by decide, by simp⟩

theorem declarable_ruleFields : Declarable (ruleFields (V := V)) where
  distinct := by simp [ruleFields]
  words := by
    simp only [ruleFields, List.forall_mem_cons]
    exact ⟨by decide, by decide, by simp⟩

theorem declarable_fields : Declarable (fields F) where
  distinct := by simp [fields]
  words := by
    simp only [fields, List.forall_mem_cons]
    exact ⟨by decide, by decide, by decide, by simp⟩

/-! ### Writing and reading -/

theorem written_ruleValue (rule : Option RuleMarks) : F.Written (ruleValue F rule) := by
  cases rule with
  | none => exact .null
  | some r => exact declarable_ruleFields.written_ofPair rfl _ _

theorem written_toValue (F : Format V) (c : Settings) : F.Written (c.toValue F) := by
  refine declarable_fields.written_ofFields rfl ?_
  simp only [List.forall_mem_cons]
  refine ⟨?_, written_ruleValue c.rule, .list ?_, by simp⟩
  · exact declarable_wildcardsFields.written_ofPair rfl _ _
  · intro v hv
    obtain ⟨l, -, rfl⟩ := List.mem_map.1 hv
    exact .label l

theorem ruleOf?_ruleValue (hF : F.Lawful) (rule : Option RuleMarks) :
    ruleOf? F (ruleValue F rule) = some rule := by
  cases rule with
  | none => rw [ruleValue, ruleOf?, hF.isNull_null, if_pos rfl]
  | some r =>
    have hnull : F.isNull (F.ofPair ruleFields r.separator r.hardEpsilon) = false :=
      hF.isNull_ofRecord _
    rw [ruleValue, ruleOf?, hnull, hF.pair?_ofPair declarable_ruleFields rfl]
    rfl

theorem ofValue?_toValue (hF : F.Lawful) (c : Settings) : ofValue? F (c.toValue F) = some c := by
  have hrecord : F.record? (fields F) (c.toValue F) = some _ :=
    hF.record?_ofFields declarable_fields rfl
  have hwildcards :=
    hF.pair?_ofPair declarable_wildcardsFields rfl c.wildcards.identity c.wildcards.other
  have halphabet : (c.alphabet.map F.ofLabel).mapM F.label? = some (c.alphabet.map id) :=
    mapM_map_eq_some fun l _ => hF.label?_ofLabel l
  simp [ofValue?, hrecord, hwildcards, ruleOf?_ruleValue hF, hF.list?_ofList, halphabet]

theorem parse?_render (hF : F.Lawful) (c : Settings) : parse? F (c.render F) = some c := by
  rw [parse?, render, hF.read?_write _ (written_toValue F c), Option.bind_some,
    ofValue?_toValue hF]

/-- Settings are read back from the text they are written as, whether they pass the check or not.
So what is read from any text is read again from the text that it is written as. -/
theorem parse?_render_and_reread {V : Type} (F : Format V) (hF : F.Lawful) :
    (∀ c : Settings, parse? F (c.render F) = some c) ∧
    ∀ text, ((parse? F text).bind fun c => parse? F (c.render F)) = parse? F text := by
  refine ⟨parse?_render hF, fun text => ?_⟩
  cases parse? F text with
  | none => rfl
  | some c => rw [Option.bind_some, parse?_render hF]

theorem parse?_render_and_reread_json :
    let c : Settings := ⟨⟨100, 101⟩, none, [1, 4294967295]⟩
    let spaced := "\x7b \"alphabet\": [1, 4294967295], \"wildcards\": " ++
      "\x7b\"other_nonid\": 101, \"other_id\": 100\x7d \x7d"
    let compact := "\x7b\"wildcards\":\x7b\"other_id\":100,\"other_nonid\":101\x7d," ++
      "\"rule\":null,\"alphabet\":[1,4294967295]\x7d"
    Json.format.Lawful ∧ parse? Json.format spaced.toList = some c ∧
      c.render Json.format = compact.toList ∧ parse? Json.format compact.toList = some c := by
  intro c spaced compact
  have hread : parse? Json.format spaced.toList = some c := by decide +kernel
  have hwrite : c.render Json.format = compact.toList := by decide +kernel
  obtain ⟨-, hagain⟩ := parse?_render_and_reread Json.format Json.lawful_format
  have hsame := hagain spaced.toList
  rw [hread, Option.bind_some, hwrite] at hsame
  exact ⟨Json.lawful_format, hread, hwrite, hsame⟩

end Settings

end WildcardNet
