import Mathlib.Data.List.Nodup
import WildcardNet.Pass.Expand
import WildcardNet.Proofs.Runs
import WildcardNet.Reading
import WildcardNet.Report
/-!
# Expanding wildcards keeps what a network stands for

When symbols become known, a wildcard stands for less, and the arcs that expansion puts beside it
make up for the difference: every pair of symbols that a wildcard arc read before is read after by
exactly one of the arc and its pieces. Step by step this carries over to runs, so a string is read
in as many ways as before, through the same states and with the same weights.
-/

namespace WildcardNet

/-! ### Counting pairs -/

/-- In a list without repetitions an item stands once or not at all. -/
theorem countP_eq_and {symbols : List Label} (hnodup : symbols.Nodup) (x : Label) (q : Prop)
    [Decidable q] :
    (symbols.countP fun c => x = c ∧ q) = if x ∈ symbols ∧ q then 1 else 0 := by
  by_cases hq : q
  · have hcount : (symbols.countP fun c => x = c) = symbols.count x := by
      refine List.countP_congr fun c _ => ?_
      rw [decide_eq_true_iff, beq_iff_eq]
      exact eq_comm
    simp only [hq, and_true, hcount, hnodup.count]
  · simp [hq]

theorem countP_flatMap_pair {α β : Type} (p : β → Bool) (items : List α) (g h : α → β) :
    (items.flatMap fun a => [g a, h a]).countP p =
      (items.countP fun a => p (g a)) + items.countP fun a => p (h a) := by
  induction items with
  | nil => rfl
  | cons a items ih =>
    rw [List.flatMap_cons, List.countP_append, ih]
    simp only [List.countP_cons, List.countP_nil]
    omega

theorem mem_of_mem_crossPairs {symbols : List Label} {c d : Label}
    (h : (c, d) ∈ crossPairs symbols) : c ∈ symbols ∧ d ∈ symbols := by
  induction symbols with
  | nil => simp [crossPairs] at h
  | cons e rest ih =>
    rw [crossPairs, List.mem_append] at h
    rcases h with h | h
    · obtain ⟨d', hd', hpair⟩ := List.mem_flatMap.1 h
      rcases List.mem_pair.1 hpair with hpair | hpair
      · obtain ⟨rfl, rfl⟩ := Prod.mk.inj hpair
        exact ⟨List.mem_cons_self, List.mem_cons_of_mem _ hd'⟩
      · obtain ⟨rfl, rfl⟩ := Prod.mk.inj hpair
        exact ⟨List.mem_cons_of_mem _ hd', List.mem_cons_self⟩
    · exact ⟨List.mem_cons_of_mem _ (ih h).1, List.mem_cons_of_mem _ (ih h).2⟩

/-- Every two different symbols are paired once in each order. -/
theorem count_crossPairs {symbols : List Label} (hnodup : symbols.Nodup) (x y : Label) :
    (crossPairs symbols).count (x, y) = if x ∈ symbols ∧ y ∈ symbols ∧ x ≠ y then 1 else 0 := by
  induction symbols with
  | nil => simp [crossPairs]
  | cons c rest ih =>
    obtain ⟨hc, hrest⟩ := List.nodup_cons.1 hnodup
    have hrow : (rest.flatMap fun d => [(c, d), (d, c)]).count (x, y) =
        (if y ∈ rest ∧ x = c then 1 else 0) + if x ∈ rest ∧ y = c then 1 else 0 := by
      rw [List.count, countP_flatMap_pair, ← countP_eq_and hrest, ← countP_eq_and hrest]
      congr 1
      · refine List.countP_congr fun d _ => ?_
        rw [beq_iff_eq, Prod.mk.injEq, decide_eq_true_iff]
        exact ⟨fun h => ⟨h.2.symm, h.1.symm⟩, fun h => ⟨h.2.symm, h.1.symm⟩⟩
      · refine List.countP_congr fun d _ => ?_
        rw [beq_iff_eq, Prod.mk.injEq, decide_eq_true_iff]
        exact ⟨fun h => ⟨h.1.symm, h.2.symm⟩, fun h => ⟨h.1.symm, h.2.symm⟩⟩
    rw [crossPairs, List.count_append, hrow, ih hrest]
    by_cases hxc : x = c
    · subst hxc
      by_cases hyc : y = x
      · subst hyc
        simp [hc]
      · simp [hc, hyc, Ne.symm hyc]
    · by_cases hyc : y = c
      · subst hyc
        simp [hc, hxc]
      · simp [hxc, hyc]

/-! ### Sharing out what a pair stands for -/

namespace Wildcards

variable {w : Wildcards} {known : Label → Prop} {alphabet : List Label} {input output x y : Label}

/-- A symbol that was unknown is one of the alphabet or still unknown, and not both. -/
theorem unknown_iff (hconcrete : ∀ c ∈ alphabet, w.isConcrete c = true)
    (hfresh : ∀ c ∈ alphabet, ¬ known c) :
    w.Unknown known x ↔ x ∈ alphabet ∨ w.Unknown (fun c => known c ∨ c ∈ alphabet) x := by
  simp only [Unknown, not_or]
  constructor
  · rintro ⟨hx, hknown⟩
    by_cases hmem : x ∈ alphabet
    · exact .inl hmem
    · exact .inr ⟨hx, hknown, hmem⟩
  · rintro (hmem | ⟨hx, hknown, -⟩)
    · exact ⟨hconcrete x hmem, hfresh x hmem⟩
    · exact ⟨hx, hknown⟩

theorem not_mem_of_unknown (h : w.Unknown (fun c => known c ∨ c ∈ alphabet) x) :
    x ∉ alphabet := fun hmem => h.2 (.inr hmem)

theorem spellOut_other :
    w.spellOut alphabet w.other w.other =
      (alphabet.flatMap fun c => [(c, w.other), (w.other, c)]) ++ crossPairs alphabet := by
  simp [spellOut]

theorem spellOut_other_input (ho : w.isWildcard output = false) :
    w.spellOut alphabet w.other output = alphabet.map fun c => (c, output) := by
  simp [spellOut, isWildcard_eq_false_iff.1 ho]

theorem spellOut_other_output (hi : w.isWildcard input = false) :
    w.spellOut alphabet input w.other = alphabet.map fun c => (input, c) := by
  simp [spellOut, isWildcard_eq_false_iff.1 hi]

theorem spellOut_identity (hw : w.identity ≠ w.other) :
    w.spellOut alphabet w.identity w.identity = alphabet.map fun c => (c, c) := by
  simp [spellOut, hw]

theorem spellOut_of_not_wildcard (hi : w.isWildcard input = false)
    (ho : w.isWildcard output = false) : w.spellOut alphabet input output = [] := by
  simp [spellOut, isWildcard_eq_false_iff.1 hi, isWildcard_eq_false_iff.1 ho]

/-- The labels of a piece come from the pair or from the alphabet, and the identity wildcard is
never one of them. -/
theorem labels_of_mem_spellOut (hw : w.identity ≠ w.other)
    (hconcrete : ∀ c ∈ alphabet, w.isConcrete c = true)
    (hpair : w.isDisallowedPair input output = false)
    (h : (x, y) ∈ w.spellOut alphabet input output) :
    (x ≠ w.identity ∧ y ≠ w.identity) ∧ (x = input ∨ x ∈ alphabet) ∧
      (y = output ∨ y ∈ alphabet) := by
  have hne : ∀ c ∈ alphabet, c ≠ w.identity :=
    fun c hc => (isConcrete_eq_true_iff.1 (hconcrete c hc)).2.1
  rcases pair_cases hpair with ⟨rfl, rfl⟩ | ⟨rfl, rfl⟩ | ⟨rfl, ho⟩ | ⟨hi, rfl⟩ | ⟨hi, ho⟩
  · rw [spellOut_identity hw] at h
    obtain ⟨c, hc, heq⟩ := List.mem_map.1 h
    obtain ⟨rfl, rfl⟩ := Prod.mk.inj heq
    exact ⟨⟨hne c hc, hne c hc⟩, .inr hc, .inr hc⟩
  · rw [spellOut_other, List.mem_append, List.mem_flatMap] at h
    rcases h with ⟨c, hc, heq⟩ | h
    · rcases List.mem_pair.1 heq with heq | heq
      · obtain ⟨rfl, rfl⟩ := Prod.mk.inj heq
        exact ⟨⟨hne x hc, hw.symm⟩, .inr hc, .inl rfl⟩
      · obtain ⟨rfl, rfl⟩ := Prod.mk.inj heq
        exact ⟨⟨hw.symm, hne y hc⟩, .inl rfl, .inr hc⟩
    · obtain ⟨hx, hy⟩ := mem_of_mem_crossPairs h
      exact ⟨⟨hne x hx, hne y hy⟩, .inr hx, .inr hy⟩
  · rw [spellOut_other_input ho] at h
    obtain ⟨c, hc, heq⟩ := List.mem_map.1 h
    obtain ⟨rfl, rfl⟩ := Prod.mk.inj heq
    exact ⟨⟨hne c hc, (isWildcard_eq_false_iff.1 ho).1⟩, .inr hc, .inl rfl⟩
  · rw [spellOut_other_output hi] at h
    obtain ⟨c, hc, heq⟩ := List.mem_map.1 h
    obtain ⟨rfl, rfl⟩ := Prod.mk.inj heq
    exact ⟨⟨(isWildcard_eq_false_iff.1 hi).1, hne c hc⟩, .inl rfl, .inr hc⟩
  · rw [spellOut_of_not_wildcard hi ho] at h
    exact absurd h List.not_mem_nil

theorem mem_map_relabel_iff {pairs : List (Label × Label)} {a b : Arc} :
    b ∈ (pairs.map fun (i, o) => { a with input := i, output := o }) ↔
      (b.input, b.output) ∈ pairs ∧ b.weight = a.weight ∧ b.target = a.target := by
  rw [List.mem_map]
  constructor
  · rintro ⟨⟨i, o⟩, hpair, rfl⟩
    exact ⟨hpair, rfl, rfl⟩
  · rintro ⟨hpair, hweight, htarget⟩
    exact ⟨_, hpair, by simp [← hweight, ← htarget]⟩

/-- The pieces of an arc keep its weight and target. -/
theorem mem_expandArc_iff {a b : Arc} :
    b ∈ w.expandArc alphabet a ↔ (b.input, b.output) ∈ w.spellOut alphabet a.input a.output ∧
      b.weight = a.weight ∧ b.target = a.target :=
  mem_map_relabel_iff

/-- How many of the label pairs stand for `(x, y)`. -/
def readers (w : Wildcards) (known : Label → Prop) [DecidablePred known]
    (pairs : List (Label × Label)) (x y : Label) : Nat :=
  pairs.countP fun p => w.Reads known p.1 p.2 x y

variable [DecidablePred known]

@[simp] theorem readers_nil : w.readers known [] x y = 0 := rfl

theorem readers_append (pairs pairs' : List (Label × Label)) :
    w.readers known (pairs ++ pairs') x y =
      w.readers known pairs x y + w.readers known pairs' x y :=
  List.countP_append

theorem readers_cons (pairs : List (Label × Label)) :
    w.readers known ((input, output) :: pairs) x y =
      w.readers known pairs x y + if w.Reads known input output x y then 1 else 0 := by
  simp [readers, List.countP_cons]

/-- Pairs that differ only in one symbol of the alphabet stand for `(x, y)` at most once. -/
theorem readers_map (hnodup : alphabet.Nodup) (pair : Label → Label × Label) (z : Label) (q : Prop)
    [Decidable q]
    (h : ∀ c ∈ alphabet, w.Reads known (pair c).1 (pair c).2 x y ↔ z = c ∧ q) :
    w.readers known (alphabet.map pair) x y = if z ∈ alphabet ∧ q then 1 else 0 := by
  rw [readers, List.countP_map, ← countP_eq_and hnodup]
  refine List.countP_congr fun c hc => ?_
  simp only [Function.comp_apply, decide_eq_true_iff]
  exact h c hc

theorem readers_spellOut_identity (hw : w.identity ≠ w.other)
    (hconcrete : ∀ c ∈ alphabet, w.isConcrete c = true) (hnodup : alphabet.Nodup) :
    w.readers known (w.spellOut alphabet w.identity w.identity) x y =
      if x ∈ alphabet ∧ y = x then 1 else 0 := by
  rw [spellOut_identity hw]
  refine readers_map hnodup _ x (y = x) fun c hc => ?_
  have hwild := isWildcard_of_isConcrete (hconcrete c hc)
  rw [reads_concrete hwild hwild]
  constructor
  · rintro ⟨rfl, rfl⟩
    exact ⟨rfl, rfl⟩
  · rintro ⟨rfl, rfl⟩
    exact ⟨rfl, rfl⟩

theorem readers_spellOut_other_input (hconcrete : ∀ c ∈ alphabet, w.isConcrete c = true)
    (hnodup : alphabet.Nodup) (houtput : w.isWildcard output = false) :
    w.readers known (w.spellOut alphabet w.other output) x y =
      if x ∈ alphabet ∧ y = output then 1 else 0 := by
  rw [spellOut_other_input houtput]
  refine readers_map hnodup _ x (y = output) fun c hc => ?_
  exact reads_concrete (isWildcard_of_isConcrete (hconcrete c hc)) houtput

theorem readers_spellOut_other_output (hconcrete : ∀ c ∈ alphabet, w.isConcrete c = true)
    (hnodup : alphabet.Nodup) (hinput : w.isWildcard input = false) :
    w.readers known (w.spellOut alphabet input w.other) x y =
      if y ∈ alphabet ∧ x = input then 1 else 0 := by
  rw [spellOut_other_output hinput]
  refine readers_map hnodup _ y (x = input) fun c hc => ?_
  rw [reads_concrete hinput (isWildcard_of_isConcrete (hconcrete c hc))]
  exact and_comm

theorem readers_spellOut_other (hconcrete : ∀ c ∈ alphabet, w.isConcrete c = true)
    (hnodup : alphabet.Nodup) :
    w.readers known (w.spellOut alphabet w.other w.other) x y =
      (if x ∈ alphabet ∧ w.Unknown known y then 1 else 0) +
        (if y ∈ alphabet ∧ w.Unknown known x then 1 else 0) +
        if x ∈ alphabet ∧ y ∈ alphabet ∧ x ≠ y then 1 else 0 := by
  have hwild : ∀ c ∈ alphabet, w.isWildcard c = false :=
    fun c hc => isWildcard_of_isConcrete (hconcrete c hc)
  have hcross : w.readers known (crossPairs alphabet) x y = (crossPairs alphabet).count (x, y) := by
    refine List.countP_congr fun p hp => ?_
    obtain ⟨hc, hd⟩ := mem_of_mem_crossPairs hp
    rw [decide_eq_true_iff, reads_concrete (hwild _ hc) (hwild _ hd), beq_iff_eq, Prod.ext_iff]
    exact ⟨fun h => ⟨h.1.symm, h.2.symm⟩, fun h => ⟨h.1.symm, h.2.symm⟩⟩
  rw [spellOut_other, readers_append, hcross, count_crossPairs hnodup, readers, countP_flatMap_pair,
    ← countP_eq_and hnodup x (w.Unknown known y), ← countP_eq_and hnodup y (w.Unknown known x)]
  congr 2
  · refine List.countP_congr fun c hc => ?_
    rw [decide_eq_true_iff, decide_eq_true_iff, reads_other_output (hwild c hc)]
  · refine List.countP_congr fun c hc => ?_
    rw [decide_eq_true_iff, decide_eq_true_iff, reads_other_input (hwild c hc)]
    exact and_comm

/-- Once the symbols of an alphabet are known, an allowed pair and its pieces together stand for
what the pair stood for, and for each pair of symbols just one of them does. -/
theorem readers_spellOut (hw : w.identity ≠ w.other)
    (hconcrete : ∀ c ∈ alphabet, w.isConcrete c = true) (hnodup : alphabet.Nodup)
    (hfresh : ∀ c ∈ alphabet, ¬ known c) (hpair : w.isDisallowedPair input output = false) :
    w.readers (fun c => known c ∨ c ∈ alphabet)
        ((input, output) :: w.spellOut alphabet input output) x y =
      w.readers known [(input, output)] x y := by
  have hx := unknown_iff (x := x) hconcrete hfresh
  have hy := unknown_iff (x := y) hconcrete hfresh
  have hx' := @not_mem_of_unknown w known alphabet x
  have hy' := @not_mem_of_unknown w known alphabet y
  rw [readers_cons, readers_cons, readers_nil, Nat.zero_add]
  rcases pair_cases hpair with ⟨rfl, rfl⟩ | ⟨rfl, rfl⟩ | ⟨rfl, ho⟩ | ⟨hi, rfl⟩ | ⟨hi, ho⟩
  · rw [readers_spellOut_identity hw hconcrete hnodup]
    simp only [reads_identity, hx]
    grind
  · rw [readers_spellOut_other hconcrete hnodup]
    simp only [reads_other hw, hx, hy]
    grind
  · rw [readers_spellOut_other_input hconcrete hnodup ho]
    simp only [reads_other_input ho, hx]
    grind
  · rw [readers_spellOut_other_output hconcrete hnodup hi]
    simp only [reads_other_output hi, hy]
    grind
  · rw [spellOut_of_not_wildcard hi ho, readers_nil, Nat.zero_add]
    simp only [reads_concrete hi ho]

theorem countP_expandArc (a : Arc) (pair : Label × Label) (landing : Weight × StateId) :
    ((w.expandArc alphabet a).countP fun b =>
        b.ReadsRelative w known pair ∧ (b.weight, b.target) = landing) =
      if (a.weight, a.target) = landing then
        w.readers known (w.spellOut alphabet a.input a.output) pair.1 pair.2
      else 0 := by
  rw [expandArc, List.countP_map]
  by_cases h : (a.weight, a.target) = landing
  · simp only [Function.comp_def, h, and_true, if_true]
    rfl
  · simp [Function.comp_def, h]

/-- At every state, as many arcs with the same weight and target read a pair after expansion as
before. -/
theorem countP_expanded (hw : w.identity ≠ w.other)
    (hconcrete : ∀ c ∈ alphabet, w.isConcrete c = true) (hnodup : alphabet.Nodup)
    (hfresh : ∀ c ∈ alphabet, ¬ known c) {arcs : List Arc}
    (hpairs : ∀ a ∈ arcs, w.isDisallowedPair a.input a.output = false) (pair : Label × Label)
    (landing : Weight × StateId) :
    ((arcs ++ arcs.flatMap (w.expandArc alphabet)).countP fun a =>
        a.ReadsRelative w (fun c => known c ∨ c ∈ alphabet) pair ∧
          (a.weight, a.target) = landing) =
      arcs.countP fun a => a.ReadsRelative w known pair ∧ (a.weight, a.target) = landing := by
  induction arcs with
  | nil => rfl
  | cons a arcs ih =>
    obtain ⟨ha, harcs⟩ := List.forall_mem_cons.1 hpairs
    have hrest := ih harcs
    have hshare := readers_spellOut (x := pair.1) (y := pair.2) hw hconcrete hnodup hfresh ha
    rw [readers_cons, readers_cons, readers_nil, Nat.zero_add] at hshare
    rw [List.countP_append] at hrest
    rw [List.flatMap_cons, List.countP_append, List.countP_append, countP_expandArc,
      List.countP_cons, List.countP_cons, ← hrest]
    by_cases h : (a.weight, a.target) = landing
    · simp only [h, and_true, if_true, decide_eq_true_eq, Arc.ReadsRelative] at hshare ⊢
      omega
    · simp only [h, and_false, if_false, decide_false, Bool.false_eq_true]
      omega

end Wildcards

/-! ### Expanded networks -/

namespace Network

variable {f : Network} {w : Wildcards} {alphabet : List Label} {known : Label → Prop} {s : StateId}

theorem expansions_eq (f : Network) (w : Wildcards) (alphabet : List Label) :
    f.expansions w alphabet =
      f.placedArcs.flatMap fun p => (w.expandArc alphabet p.arc).map (PlacedArc.mk p.source) := rfl

theorem admits_expansions (hf : f.WellFormed) :
    ∀ p ∈ f.expansions w alphabet, f.admits p = true := by
  intro p hp
  rw [expansions_eq, List.mem_flatMap] at hp
  obtain ⟨q, hq, hp⟩ := hp
  obtain ⟨b, hb, rfl⟩ := List.mem_map.1 hp
  obtain ⟨-, -, htarget⟩ := Wildcards.mem_expandArc_iff.1 hb
  have hleaves := mem_placedArcs_iff.1 hq
  exact admits_iff.2 ⟨lt_size_of_mem_arcsFrom hleaves, htarget ▸ hf.target_lt hleaves⟩

theorem spellOut_nil (w : Wildcards) (input output : Label) : w.spellOut [] input output = [] := by
  simp only [Wildcards.spellOut, List.flatMap_nil, List.map_nil, crossPairs, List.append_nil]
  split
  · split <;> rfl
  · split
    · rfl
    · split <;> rfl

theorem expand_result (hf : f.WellFormed) :
    (f.expand w alphabet).result = .ok alphabet.eraseDups := by
  rw [expand]
  split
  · next h =>
    rw [List.isEmpty_iff.1 h]
    rfl
  · rw [Outcome.andThen_result_of_ok (insertStaged_result (admits_expansions hf))]

theorem expand_network (hf : f.WellFormed) :
    (f.expand w alphabet).network = f.appendArcs (f.expansions w alphabet) := by
  rw [expand]
  split
  · next h =>
    have hnone : f.expansions w [] = [] := by
      simp [expansions, Wildcards.expandArc, spellOut_nil]
    rw [List.isEmpty_iff.1 h, hnone, appendArcs_nil]
  · rw [Outcome.andThen_network_of_ok (insertStaged_result (admits_expansions hf)),
      insertStaged_network (admits_expansions hf)]

theorem arcsFrom_expand (hf : f.WellFormed) (s : StateId) :
    (f.expand w alphabet).network.arcsFrom s =
      f.arcsFrom s ++ (f.arcsFrom s).flatMap (w.expandArc alphabet) := by
  rw [expand_network hf]
  rcases Nat.lt_or_ge s f.size with hs | hs
  · rw [arcsFrom_appendArcs hs, expansions_eq,
      filter_source_flatMap_placedArcs f fun p => w.expandArc alphabet p.arc]
  · rw [arcsFrom_of_size_le hs, arcsFrom_of_size_le (by simpa using hs)]
    rfl

theorem start_expand (hf : f.WellFormed) : (f.expand w alphabet).network.start = f.start := by
  rw [expand_network hf, start_appendArcs]

theorem size_expand (hf : f.WellFormed) : (f.expand w alphabet).network.size = f.size := by
  rw [expand_network hf, size_appendArcs]

theorem final?_expand (hf : f.WellFormed) (s : StateId) :
    (f.expand w alphabet).network.final? s = f.final? s := by
  rw [expand_network hf, final?_appendArcs]

theorem eraseDups_of_nodup {symbols : List Label} (hnodup : symbols.Nodup) :
    symbols.eraseDups = symbols := by
  induction symbols with
  | nil => rfl
  | cons c rest ih =>
    obtain ⟨hc, hrest⟩ := List.nodup_cons.1 hnodup
    have hkeep : (rest.filter fun d => !d == c) = rest := by
      refine List.filter_eq_self.2 fun d hd => ?_
      have hne : d ≠ c := fun h => hc (h ▸ hd)
      simpa using hne
    rw [List.eraseDups_cons, hkeep, ih hrest]

/-- Once the symbols of an alphabet are known, an expanded network reads every string in as many
ways as the network did before they were: there is a one-to-one correspondence between the
successful runs, and it keeps the states, the weights of the arcs and the final weight. -/
theorem exists_equiv_expand (hw : w.check = .ok ()) (hf : f.WellFormed)
    (hpairs : f.disallowedPairs w = []) (halphabet : checkAlphabet w alphabet = .ok alphabet)
    (hfresh : ∀ c ∈ alphabet, ¬ known c) (string : List (Label × Label)) :
    (f.expand w alphabet).result = .ok alphabet ∧
      ∃ e : SuccessfulReading (f.expand w alphabet).network
            (Arc.ReadsRelative w fun c => known c ∨ c ∈ alphabet) string ≃
          SuccessfulReading f (Arc.ReadsRelative w known) string,
        ∀ r, (e r).run.states = r.run.states ∧ (e r).run.weights = r.run.weights ∧
          (e r).run.finalWeight = r.run.finalWeight := by
  classical
  obtain ⟨-, -, hne⟩ := Wildcards.check_eq_ok_iff.1 hw
  obtain ⟨-, hconcrete, hnodup⟩ := checkAlphabet_eq_ok_iff.1 halphabet
  have hallowed := forall_arc_iff.1 (disallowedPairs_eq_nil_iff.1 hpairs)
  refine ⟨by rw [expand_result hf, eraseDups_of_nodup hnodup], ?_⟩
  refine exists_successfulReading_equiv ?_ ?_ ?_ string
  · rw [expand_network hf, start_appendArcs]
  · intro s
    rw [expand_network hf, final?_appendArcs]
  · intro s pair landing
    refine nonempty_stepTo_equiv ?_
    rw [arcsFrom_expand hf]
    exact Wildcards.countP_expanded hne hconcrete hnodup hfresh (hallowed s) pair landing

/-- The correspondence for a network with the other wildcard stored twice, an alphabet of two
symbols, and a string with one symbol of the alphabet and one that stays unknown. -/
theorem exists_equiv_expand_twice :
    let f : Network := ⟨#[⟨Weight.zero, [⟨101, 101, Weight.one, 1⟩, ⟨101, 101, Weight.one, 1⟩,
      ⟨100, 100, Weight.one, 1⟩]⟩, ⟨Weight.one, []⟩], some 0⟩
    let w : Wildcards := ⟨100, 101⟩
    let known : Label → Prop := fun c => c = 1
    let grown : Label → Prop := fun c => known c ∨ c ∈ [5, 6]
    w.check = .ok () ∧ f.WellFormed ∧ f.disallowedPairs w = [] ∧
      checkAlphabet w [5, 6] = .ok [5, 6] ∧ (∀ c ∈ [5, 6], ¬ known c) ∧
      (f.expand w [5, 6]).result = .ok [5, 6] ∧
      ∃ e : SuccessfulReading (f.expand w [5, 6]).network (Arc.ReadsRelative w grown) [(5, 7)] ≃
          SuccessfulReading f (Arc.ReadsRelative w known) [(5, 7)],
        ∀ r, (e r).run.states = r.run.states ∧ (e r).run.weights = r.run.weights ∧
          (e r).run.finalWeight = r.run.finalWeight := by
  intro f w known grown
  have hw : w.check = .ok () := by decide
  have hf : f.WellFormed := isWellFormed_eq_true_iff.1 (by decide)
  have hpairs : f.disallowedPairs w = [] := by decide
  have halphabet : checkAlphabet w [5, 6] = .ok [5, 6] := by decide
  have hfresh : ∀ c ∈ [5, 6], ¬ known c := by simp [known]
  exact ⟨hw, hf, hpairs, halphabet, hfresh,
    exists_equiv_expand hw hf hpairs halphabet hfresh [(5, 7)]⟩

end Network

end WildcardNet
