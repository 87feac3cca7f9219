import WildcardNet.Proofs.Expansion
import WildcardNet.Proofs.Trimming
/-!
# Closing a network over an alphabet

Stripping keeps the successful runs without wildcard arcs. In an expanded network these are all that
is needed to read strings over known symbols and the alphabet, so a network closed over an alphabet
accepts literally what it stood for, as far as these symbols go.
-/

namespace WildcardNet

/-- All symbols of the pair are listed; epsilon need not be. -/
def WithinSymbols (listed : Label → Prop) (pair : Label × Label) : Prop :=
  (pair.1 ≠ Label.epsilon → listed pair.1) ∧ (pair.2 ≠ Label.epsilon → listed pair.2)

namespace Wildcards

variable {w : Wildcards} {known : Label → Prop} {input output x y : Label}

theorem not_unknown_of_listed (h : x ≠ Label.epsilon → known x) : ¬ w.Unknown known x := by
  rintro ⟨hconcrete, hknown⟩
  exact hknown (h (isConcrete_eq_true_iff.1 hconcrete).1)

/-- Among known symbols only pairs without wildcards are read, and they stand for themselves. -/
theorem reads_within_iff (hw : w.identity ≠ w.other)
    (hpair : w.isDisallowedPair input output = false) (hwithin : WithinSymbols known (x, y)) :
    w.Reads known input output x y ↔
      (w.isWildcard input || w.isWildcard output) = false ∧ (x, y) = (input, output) := by
  have hx := not_unknown_of_listed (w := w) hwithin.1
  have hy := not_unknown_of_listed (w := w) hwithin.2
  have hid : w.isWildcard w.identity = true := by simp [isWildcard]
  have hother : w.isWildcard w.other = true := by simp [isWildcard]
  rw [Prod.mk.injEq]
  rcases pair_cases hpair with ⟨rfl, rfl⟩ | ⟨rfl, rfl⟩ | ⟨rfl, ho⟩ | ⟨hi, rfl⟩ | ⟨hi, ho⟩
  · simp [reads_identity, hx, hid]
  · simp [reads_other hw, hx, hother]
  · simp [reads_other_input ho, hx, hother]
  · simp [reads_other_output hi, hy, hother]
  · simp [reads_concrete hi ho, hi, ho]

/-- A label that is neither epsilon nor a wildcard is concrete. -/
theorem isConcrete_of_not_wildcard (hwild : w.isWildcard x = false) (hx : x ≠ Label.epsilon) :
    w.isConcrete x = true := by
  simp [isConcrete, hx, hwild]

end Wildcards

namespace Network

variable {f : Network} {w : Wildcards} {alphabet : List Label} {known : Label → Prop}
  {s t : StateId} {string : List (Label × Label)} {pair : Label × Label} {b : Arc}

/-! ### Arcs of an expanded network -/

theorem mem_arcsFrom_expand_iff (hf : f.WellFormed) :
    b ∈ (f.expand w alphabet).network.arcsFrom s ↔
      b ∈ f.arcsFrom s ∨ ∃ a ∈ f.arcsFrom s, b ∈ w.expandArc alphabet a := by
  rw [arcsFrom_expand hf, List.mem_append, List.mem_flatMap]

theorem WellFormed.expand (hf : f.WellFormed) (w : Wildcards) (alphabet : List Label) :
    (f.expand w alphabet).network.WellFormed := by
  rw [expand_network hf]
  exact hf.appendArcs (admits_expansions hf)

theorem allowed_expand (hf : f.WellFormed) (hw : w.identity ≠ w.other)
    (hconcrete : ∀ c ∈ alphabet, w.isConcrete c = true)
    (hpairs : ∀ s, ∀ a ∈ f.arcsFrom s, w.isDisallowedPair a.input a.output = false)
    (hb : b ∈ (f.expand w alphabet).network.arcsFrom s) :
    w.isDisallowedPair b.input b.output = false := by
  rcases (mem_arcsFrom_expand_iff hf).1 hb with hb | ⟨a, ha, hb⟩
  · exact hpairs s b hb
  · obtain ⟨hpiece, -⟩ := Wildcards.mem_expandArc_iff.1 hb
    obtain ⟨⟨hi, ho⟩, -⟩ := Wildcards.labels_of_mem_spellOut hw hconcrete (hpairs s a ha) hpiece
    simp [Wildcards.isDisallowedPair, hi, ho]

theorem MentionsOnly.expand (hknown : f.MentionsOnly w known) (hf : f.WellFormed)
    (hw : w.identity ≠ w.other) (hconcrete : ∀ c ∈ alphabet, w.isConcrete c = true)
    (hpairs : ∀ s, ∀ a ∈ f.arcsFrom s, w.isDisallowedPair a.input a.output = false) :
    (f.expand w alphabet).network.MentionsOnly w fun c => known c ∨ c ∈ alphabet := by
  have hknown' := forall_arc_iff.1 hknown
  refine forall_arc_iff.2 fun s b hb => ?_
  rcases (mem_arcsFrom_expand_iff hf).1 hb with hb | ⟨a, ha, hb⟩
  · exact ⟨fun h => .inl ((hknown' s b hb).1 h), fun h => .inl ((hknown' s b hb).2 h)⟩
  · obtain ⟨hpiece, -⟩ := Wildcards.mem_expandArc_iff.1 hb
    obtain ⟨-, hi, ho⟩ := Wildcards.labels_of_mem_spellOut hw hconcrete (hpairs s a ha) hpiece
    refine ⟨fun h => hi.imp_left fun heq => ?_, fun h => ho.imp_left fun heq => ?_⟩
    · rw [heq] at h ⊢
      exact (hknown' s a ha).1 h
    · rw [heq] at h ⊢
      exact (hknown' s a ha).2 h

/-- An expanded network can read a pair between two states if and only if the network could. -/
theorem exists_step_expand_iff (hf : f.WellFormed) (hw : w.identity ≠ w.other)
    (hconcrete : ∀ c ∈ alphabet, w.isConcrete c = true) (hnodup : alphabet.Nodup)
    (hfresh : ∀ c ∈ alphabet, ¬ known c)
    (hpairs : ∀ s, ∀ a ∈ f.arcsFrom s, w.isDisallowedPair a.input a.output = false) :
    (∃ b ∈ (f.expand w alphabet).network.arcsFrom s,
        b.ReadsRelative w (fun c => known c ∨ c ∈ alphabet) pair ∧ b.target = t) ↔
      ∃ a ∈ f.arcsFrom s, a.ReadsRelative w known pair ∧ a.target = t := by
  classical
  rw [arcsFrom_expand hf, exists_read_iff, exists_read_iff]
  simp only [Wildcards.countP_expanded hw hconcrete hnodup hfresh (hpairs s)]

/-! ### Stripped networks -/

theorem strip_result (hf : f.WellFormed) (w : Wildcards) : (f.strip w).result = .ok () := by
  rw [strip, Outcome.andThen_result_of_ok (pruneArcs_result hf w.onArc)]

/-- A stripped network accepts literally what is read without wildcard arcs. -/
theorem accepts_strip_iff (hf : f.WellFormed) :
    (f.strip w).network.Accepts Arc.ReadsLiterally string ↔
      f.Accepts (fun a pair => w.onArc a = false ∧ a.ReadsLiterally pair) string := by
  rw [strip, Outcome.andThen_network_of_ok (pruneArcs_result hf w.onArc), accepts_iff, accepts_iff]
  obtain ⟨number, hprune⟩ := exists_succeeds_pruneArcs_iff hf w.onArc
  simp only [hprune, List.forall₂_and_left]
  constructor
  · rintro ⟨_, ⟨arcs, hsucceeds, hspared, rfl⟩, hread⟩
    rw [List.forall₂_map_left_iff] at hread
    exact ⟨arcs, hsucceeds, hspared, hread⟩
  · rintro ⟨arcs, hsucceeds, hspared, hread⟩
    refine ⟨_, ⟨arcs, hsucceeds, hspared, rfl⟩, ?_⟩
    rw [List.forall₂_map_left_iff]
    exact hread

/-- A string that is read without wildcard arcs has only symbols that stand on arcs. -/
theorem withinSymbols_of_accepts (hknown : f.MentionsOnly w known)
    (haccepts : f.Accepts (fun a pair => w.onArc a = false ∧ a.ReadsLiterally pair) string) :
    ∀ pair ∈ string, WithinSymbols known pair := by
  intro pair hpair
  obtain ⟨s, b, hb, hspared, rfl⟩ := haccepts.exists_reader pair hpair
  obtain ⟨hi, ho⟩ := Bool.or_eq_false_iff.1 hspared
  obtain ⟨hinput, houtput⟩ := forall_arc_iff.1 hknown s b hb
  exact ⟨fun hne => hinput (Wildcards.isConcrete_of_not_wildcard hi hne),
    fun hne => houtput (Wildcards.isConcrete_of_not_wildcard ho hne)⟩

/-- Over known symbols no wildcard arcs are needed. -/
theorem accepts_within_iff (hw : w.identity ≠ w.other)
    (hpairs : ∀ s, ∀ a ∈ f.arcsFrom s, w.isDisallowedPair a.input a.output = false)
    (hwithin : ∀ pair ∈ string, WithinSymbols known pair) :
    f.Accepts (fun a pair => w.onArc a = false ∧ a.ReadsLiterally pair) string ↔
      f.Accepts (Arc.ReadsRelative w known) string := by
  refine accepts_congr rfl (fun _ => Iff.rfl) fun pair hpair s t => ?_
  refine exists_congr fun b => and_congr_right fun hb => and_congr_left fun _ => ?_
  exact (Wildcards.reads_within_iff hw (hpairs s b hb) (hwithin pair hpair)).symm

/-! ### Closed networks -/

/-- Once the symbols of the alphabet are known, an expanded network accepts what the network
accepted before. -/
theorem accepts_expand_iff (hf : f.WellFormed) (hw : w.identity ≠ w.other)
    (hconcrete : ∀ c ∈ alphabet, w.isConcrete c = true) (hnodup : alphabet.Nodup)
    (hfresh : ∀ c ∈ alphabet, ¬ known c)
    (hpairs : ∀ s, ∀ a ∈ f.arcsFrom s, w.isDisallowedPair a.input a.output = false) :
    (f.expand w alphabet).network.Accepts
        (Arc.ReadsRelative w fun c => known c ∨ c ∈ alphabet) string ↔
      f.Accepts (Arc.ReadsRelative w known) string :=
  accepts_congr (start_expand hf) (fun s => isFinal_congr (final?_expand hf s)) fun _ _ _ _ =>
    exists_step_expand_iff hf hw hconcrete hnodup hfresh hpairs

/-- A string that an expanded network reads without wildcard arcs has known symbols and symbols of
the alphabet only. -/
theorem withinSymbols_of_accepts_expand (hf : f.WellFormed) (hw : w.identity ≠ w.other)
    (hconcrete : ∀ c ∈ alphabet, w.isConcrete c = true)
    (hpairs : ∀ s, ∀ a ∈ f.arcsFrom s, w.isDisallowedPair a.input a.output = false)
    (hknown : f.MentionsOnly w known)
    (haccepts : (f.expand w alphabet).network.Accepts
      (fun a pair => w.onArc a = false ∧ a.ReadsLiterally pair) string) :
    ∀ pair ∈ string, WithinSymbols (fun c => known c ∨ c ∈ alphabet) pair :=
  withinSymbols_of_accepts (hknown.expand hf hw hconcrete hpairs) haccepts

/-- Over known symbols and the alphabet, an expanded network needs no wildcard arcs to read what the
network read. -/
theorem accepts_expand_within_iff (hf : f.WellFormed) (hw : w.identity ≠ w.other)
    (hconcrete : ∀ c ∈ alphabet, w.isConcrete c = true) (hnodup : alphabet.Nodup)
    (hfresh : ∀ c ∈ alphabet, ¬ known c)
    (hpairs : ∀ s, ∀ a ∈ f.arcsFrom s, w.isDisallowedPair a.input a.output = false)
    (hwithin : ∀ pair ∈ string, WithinSymbols (fun c => known c ∨ c ∈ alphabet) pair) :
    (f.expand w alphabet).network.Accepts
        (fun a pair => w.onArc a = false ∧ a.ReadsLiterally pair) string ↔
      f.Accepts (Arc.ReadsRelative w known) string := by
  have hallowed := fun s b => allowed_expand (s := s) (b := b) hf hw hconcrete hpairs
  rw [accepts_within_iff hw hallowed hwithin]
  exact accepts_expand_iff hf hw hconcrete hnodup hfresh hpairs

/-- Closing a network over an alphabet disjoint from the known symbols succeeds. The result accepts,
read literally, just those strings over known symbols and the alphabet that the network accepted
with its wildcards standing for unknown symbols. -/
theorem accepts_close_iff (hw : w.check = .ok ()) (hf : f.WellFormed)
    (hpairs : f.disallowedPairs w = []) (hknown : f.MentionsOnly w known)
    (halphabet : checkAlphabet w alphabet = .ok alphabet) (hfresh : ∀ c ∈ alphabet, ¬ known c)
    (string : List (Label × Label)) :
    (f.close w alphabet).result = .ok alphabet ∧
      ((f.close w alphabet).network.Accepts Arc.ReadsLiterally string ↔
        (∀ pair ∈ string, WithinSymbols (fun c => known c ∨ c ∈ alphabet) pair) ∧
          f.Accepts (Arc.ReadsRelative w known) string) := by
  obtain ⟨-, -, hne⟩ := Wildcards.check_eq_ok_iff.1 hw
  obtain ⟨-, hconcrete, hnodup⟩ := checkAlphabet_eq_ok_iff.1 halphabet
  have hallowed := forall_arc_iff.1 (disallowedPairs_eq_nil_iff.1 hpairs)
  have hexpand : (f.expand w alphabet).result = .ok alphabet := by
    rw [expand_result hf, eraseDups_of_nodup hnodup]
  have hexpanded := hf.expand w alphabet
  have hstrip := strip_result hexpanded w
  rw [close, Outcome.andThen_result_of_ok hexpand, Outcome.andThen_network_of_ok hexpand,
    Outcome.andThen_result_of_ok hstrip, Outcome.andThen_network_of_ok hstrip]
  refine ⟨rfl, ?_⟩
  rw [accepts_strip_iff hexpanded]
  constructor
  · intro haccepts
    have hwithin := withinSymbols_of_accepts_expand hf hne hconcrete hallowed hknown haccepts
    refine ⟨hwithin, ?_⟩
    exact (accepts_expand_within_iff hf hne hconcrete hnodup hfresh hallowed hwithin).1 haccepts
  · rintro ⟨hwithin, haccepts⟩
    exact (accepts_expand_within_iff hf hne hconcrete hnodup hfresh hallowed hwithin).2 haccepts

/-- Closing a network with all kinds of wildcard pairs over two symbols. -/
theorem accepts_close_two_symbols :
    let f : Network := ⟨#[⟨Weight.zero, [⟨101, 101, Weight.one, 1⟩, ⟨100, 100, Weight.one, 0⟩]⟩,
      ⟨Weight.one, [⟨1, 101, Weight.one, 1⟩, ⟨101, 0, Weight.one, 1⟩]⟩], some 0⟩
    let w : Wildcards := ⟨100, 101⟩
    let known : Label → Prop := fun c => c = 1
    w.check = .ok () ∧ f.WellFormed ∧ f.disallowedPairs w = [] ∧ f.MentionsOnly w known ∧
      checkAlphabet w [5, 6] = .ok [5, 6] ∧ (∀ c ∈ [5, 6], ¬ known c) ∧
      (f.close w [5, 6]).result = .ok [5, 6] ∧
      ((f.close w [5, 6]).network.Accepts Arc.ReadsLiterally [(6, 6), (5, 6), (1, 5), (6, 0)] ↔
        (∀ pair ∈ [(6, 6), (5, 6), (1, 5), (6, 0)],
            WithinSymbols (fun c => known c ∨ c ∈ [5, 6]) pair) ∧
          f.Accepts (Arc.ReadsRelative w known) [(6, 6), (5, 6), (1, 5), (6, 0)]) := by
  intro f w known
  have hw : w.check = .ok () := by decide
  have hf : f.WellFormed := isWellFormed_eq_true_iff.1 (by decide)
  have hpairs : f.disallowedPairs w = [] := by decide
  have hknown : f.MentionsOnly w known := by
    simp only [MentionsOnly, f]
    decide
  have halphabet : checkAlphabet w [5, 6] = .ok [5, 6] := by decide
  have hfresh : ∀ c ∈ [5, 6], ¬ known c := by simp [known]
  exact ⟨hw, hf, hpairs, hknown, halphabet, hfresh,
    accepts_close_iff hw hf hpairs hknown halphabet hfresh _⟩

end Network

end WildcardNet
