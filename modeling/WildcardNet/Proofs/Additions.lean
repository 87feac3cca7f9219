import WildcardNet.Proofs.Joining
/-!
# What expansion adds

Expansion leaves the arcs of a state as they are and puts the pieces of these arcs behind them. The
number of pieces follows from the labels of an arc and the size of the alphabet; it is quadratic if
the other wildcard stands on both sides, and then every pair of different symbols is among them
once. States may as well take turns, each scanned when the pieces of those before it are already in
the network: pieces stay at the source of their arc, so nobody's turn comes to see them.
-/

namespace WildcardNet

/-! ### Pieces of one arc -/

theorem length_crossPairs (symbols : List Label) :
    (crossPairs symbols).length + symbols.length = symbols.length * symbols.length := by
  induction symbols with
  | nil => rfl
  | cons c rest ih =>
    have hrow : (rest.flatMap fun d => [(c, d), (d, c)]).length = 2 * rest.length := by
      simp [List.length_flatMap, Nat.mul_comm]
    rw [crossPairs, List.length_append, hrow, List.length_cons, Nat.add_mul, Nat.mul_add]
    omega

namespace Wildcards

variable {w : Wildcards} {alphabet : List Label} {a b : Arc}

theorem length_spellOut_other (w : Wildcards) (alphabet : List Label) :
    (w.spellOut alphabet w.other w.other).length = alphabet.length * (alphabet.length + 1) := by
  have hcross := length_crossPairs alphabet
  have hsides : (alphabet.flatMap fun c => [(c, w.other), (w.other, c)]).length =
      2 * alphabet.length := by
    simp [List.length_flatMap, Nat.mul_comm]
  rw [spellOut_other, List.length_append, hsides, Nat.mul_add]
  omega

theorem length_expandArc (w : Wildcards) (alphabet : List Label) (a : Arc) :
    (w.expandArc alphabet a).length =
      if a.input = w.other ∧ a.output = w.other then alphabet.length * (alphabet.length + 1)
      else if a.input = w.other ∨ a.output = w.other ∨ a.input = w.identity then alphabet.length
      else 0 := by
  by_cases hboth : a.input = w.other ∧ a.output = w.other
  · rw [if_pos hboth, expandArc, List.length_map, hboth.1, hboth.2, length_spellOut_other]
  · rw [if_neg hboth, expandArc, List.length_map]
    by_cases hinput : a.input = w.other
    · have houtput : a.output ≠ w.other := fun h => hboth ⟨hinput, h⟩
      simp [spellOut, hinput, houtput]
    · by_cases houtput : a.output = w.other
      · simp [spellOut, hinput, houtput]
      · by_cases hidentity : a.input = w.identity
        · rw [hidentity] at hinput
          simp [spellOut, hinput, houtput, hidentity]
        · simp [spellOut, hinput, houtput, hidentity]

/-- Where the other wildcard stands on both sides, a pair of labels is spelled out once or not at
all. -/
theorem count_spellOut_other (hnodup : alphabet.Nodup) (x y : Label) :
    (w.spellOut alphabet w.other w.other).count (x, y) =
      (if x ∈ alphabet ∧ y = w.other then 1 else 0) +
        (if y ∈ alphabet ∧ x = w.other then 1 else 0) +
        if x ∈ alphabet ∧ y ∈ alphabet ∧ x ≠ y then 1 else 0 := by
  rw [spellOut_other, List.count_append, count_crossPairs hnodup, List.count, countP_flatMap_pair,
    ← countP_eq_and hnodup x (y = w.other), ← countP_eq_and hnodup y (x = w.other)]
  congr 2
  · refine List.countP_congr fun c _ => ?_
    rw [beq_iff_eq, Prod.mk.injEq, decide_eq_true_iff]
    exact ⟨fun h => ⟨h.1.symm, h.2.symm⟩, fun h => ⟨h.1.symm, h.2.symm⟩⟩
  · refine List.countP_congr fun c _ => ?_
    rw [beq_iff_eq, Prod.mk.injEq, decide_eq_true_iff]
    exact ⟨fun h => ⟨h.2.symm, h.1.symm⟩, fun h => ⟨h.2.symm, h.1.symm⟩⟩

theorem nodup_expandArc_other (hnodup : alphabet.Nodup)
    (hconcrete : ∀ c ∈ alphabet, w.isConcrete c = true) (hinput : a.input = w.other)
    (houtput : a.output = w.other) : (w.expandArc alphabet a).Nodup := by
  have hother : w.other ∉ alphabet := fun h => (isConcrete_eq_true_iff.1 (hconcrete _ h)).2.2 rfl
  rw [expandArc, hinput, houtput]
  refine List.Nodup.map ?_ (List.nodup_iff_count_le_one.2 ?_)
  · rintro ⟨i, o⟩ ⟨i', o'⟩ heq
    obtain ⟨hi, ho, -⟩ := Arc.mk.inj heq
    exact Prod.ext hi ho
  · rintro ⟨x, y⟩
    rw [count_spellOut_other hnodup]
    grind

/-- The symbols of the alphabet beside the wildcard, and every two different ones. -/
theorem mem_expandArc_other_iff (hnodup : alphabet.Nodup) (hinput : a.input = w.other)
    (houtput : a.output = w.other) :
    b ∈ w.expandArc alphabet a ↔ b.weight = a.weight ∧ b.target = a.target ∧
      (b.input ∈ alphabet ∧ b.output = w.other ∨ b.input = w.other ∧ b.output ∈ alphabet ∨
        b.input ∈ alphabet ∧ b.output ∈ alphabet ∧ b.input ≠ b.output) := by
  rw [mem_expandArc_iff, hinput, houtput, ← List.one_le_count_iff, count_spellOut_other hnodup]
  grind

end Wildcards

namespace Network

variable {f : Network} {w : Wildcards} {alphabet : List Label} {s : StateId}

/-! ### Counting arcs -/

theorem flatMap_arcs_states (f : Network) :
    f.states.toList.flatMap State.arcs = (List.range f.size).flatMap f.arcsFrom := by
  have harcs : f.states.toList.map State.arcs = (List.range f.size).map f.arcsFrom := by
    apply List.ext_getElem?
    intro s
    rw [List.getElem?_map, List.getElem?_map, Array.getElem?_toList]
    rcases Nat.lt_or_ge s f.size with hs | hs
    · have hst : f.states[s]? = some f.states[s] := Array.getElem?_eq_getElem hs
      rw [List.getElem?_range hs, hst, Option.map_some, Option.map_some, arcsFrom_of_getElem? hst]
    · rw [Array.getElem?_eq_none hs, List.getElem?_eq_none (by simpa using hs)]
      rfl
  rw [List.flatMap_def, List.flatMap_def, harcs]

theorem arcCount_eq (f : Network) :
    f.arcCount = ((List.range f.size).flatMap f.arcsFrom).length := by
  rw [arcCount, flatMap_arcs_states]

theorem length_expansions (f : Network) (w : Wildcards) (alphabet : List Label) :
    (f.expansions w alphabet).length =
      (((List.range f.size).flatMap f.arcsFrom).flatMap (w.expandArc alphabet)).length := by
  rw [← flatMap_arcs_states, ← map_arc_placedArcs, expansions_eq, List.flatMap_map]
  simp only [List.length_flatMap, List.length_map]

theorem arcCount_expand (hf : f.WellFormed) :
    (f.expand w alphabet).network.arcCount = f.arcCount + (f.expansions w alphabet).length := by
  have hperm := List.flatMap_append_perm (List.range f.size) f.arcsFrom fun s =>
    (f.arcsFrom s).flatMap (w.expandArc alphabet)
  rw [arcCount_eq, arcCount_eq, length_expansions, size_expand hf, List.flatMap_assoc,
    ← List.length_append, hperm.length_eq]
  exact congrArg List.length (List.flatMap_congr fun s _ => arcsFrom_expand hf s)

theorem expand_events (hf : f.WellFormed) (hne : alphabet ≠ []) :
    (f.expand w alphabet).events =
      [.expanded alphabet.length (f.expansions w alphabet).length] := by
  rw [expand, if_neg (by simpa using hne), insertStaged_of_admits (admits_expansions hf)]
  rfl

/-! ### One state after another -/

/-- The turn of a state: its arcs are scanned as they stand by then, and their pieces inserted. -/
def expandAt (f : Network) (w : Wildcards) (alphabet : List Label) (s : StateId) :
    Outcome NetworkError Nat :=
  f.insertStaged (((f.arcsFrom s).flatMap (w.expandArc alphabet)).map (PlacedArc.mk s))

/-- States take turns, and the inserted arcs are counted. -/
def expandEach (f : Network) (w : Wildcards) (alphabet : List Label) :
    List StateId → Outcome NetworkError Nat
  | [] => ⟨f, [], .ok 0⟩
  | s :: rest =>
    (f.expandAt w alphabet s).andThen fun g added =>
      (g.expandEach w alphabet rest).andThen fun h more => ⟨h, [], .ok (added + more)⟩

theorem admits_pieces (hf : f.WellFormed) (w : Wildcards) (alphabet : List Label) (s : StateId) :
    ∀ p ∈ ((f.arcsFrom s).flatMap (w.expandArc alphabet)).map (PlacedArc.mk s),
      f.admits p = true := by
  intro p hp
  obtain ⟨b, hb, rfl⟩ := List.mem_map.1 hp
  obtain ⟨a, ha, hb⟩ := List.mem_flatMap.1 hb
  obtain ⟨-, -, htarget⟩ := Wildcards.mem_expandArc_iff.1 hb
  exact admits_iff.2 ⟨lt_size_of_mem_arcsFrom ha, htarget ▸ hf.target_lt ha⟩

/-- A turn adds to the arcs of its own state only. -/
theorem exists_expandAt_eq (hf : f.WellFormed) (w : Wildcards) (alphabet : List Label)
    (hs : s < f.size) :
    ∃ g, f.expandAt w alphabet s =
        ⟨g, [], .ok ((f.arcsFrom s).flatMap (w.expandArc alphabet)).length⟩ ∧
      g.WellFormed ∧ g.start = f.start ∧ g.size = f.size ∧ (∀ t, g.final? t = f.final? t) ∧
      ∀ t, g.arcsFrom t =
        f.arcsFrom t ++ if t = s then (f.arcsFrom s).flatMap (w.expandArc alphabet) else [] := by
  have hadmits := admits_pieces hf w alphabet s
  refine ⟨_, ?_, hf.appendArcs hadmits, start_appendArcs _ _, size_appendArcs _ _,
    final?_appendArcs _ _, fun t => ?_⟩
  · rw [expandAt, insertStaged_of_admits hadmits, List.length_map]
  · rcases Nat.lt_or_ge t f.size with ht | ht
    · rw [arcsFrom_appendArcs ht, List.filter_map, List.map_map]
      by_cases hts : t = s
      · simp [Function.comp_def, hts]
      · simp [Function.comp_def, hts, Ne.symm hts]
    · have hts : t ≠ s := (Nat.lt_of_lt_of_le hs ht).ne'
      rw [arcsFrom_of_size_le ht, arcsFrom_of_size_le (by simpa using ht), if_neg hts]
      rfl

/-- After the turns of some states these have their pieces, and all others are as before. -/
theorem exists_expandEach_eq (hf : f.WellFormed) (w : Wildcards) (alphabet : List Label)
    {states : List StateId} (hnodup : states.Nodup) (hstates : ∀ s ∈ states, s < f.size) :
    ∃ g, f.expandEach w alphabet states =
        ⟨g, [], .ok ((states.flatMap f.arcsFrom).flatMap (w.expandArc alphabet)).length⟩ ∧
      g.start = f.start ∧ g.size = f.size ∧ (∀ t, g.final? t = f.final? t) ∧
      ∀ t, g.arcsFrom t =
        f.arcsFrom t ++
          if t ∈ states then (f.arcsFrom t).flatMap (w.expandArc alphabet) else [] := by
  induction states generalizing f with
  | nil => exact ⟨f, rfl, rfl, rfl, fun _ => rfl, fun t => by simp⟩
  | cons s states ih =>
    obtain ⟨hs, hnodup⟩ := List.nodup_cons.1 hnodup
    obtain ⟨hlt, hrest⟩ := List.forall_mem_cons.1 hstates
    obtain ⟨g, hg, hformed, hstart, hsize, hfinal, harcs⟩ := exists_expandAt_eq hf w alphabet hlt
    obtain ⟨h, hh, hstart', hsize', hfinal', harcs'⟩ := ih hformed hnodup (by rwa [hsize])
    -- The states whose turn is still to come are as they were.
    have hwaiting : states.flatMap g.arcsFrom = states.flatMap f.arcsFrom := by
      refine List.flatMap_congr fun t ht => ?_
      have hts : t ≠ s := fun heq => hs (heq ▸ ht)
      rw [harcs, if_neg hts, List.append_nil]
    refine ⟨h, ?_, hstart'.trans hstart, hsize'.trans hsize, fun t => (hfinal' t).trans (hfinal t),
      fun t => ?_⟩
    · simp only [expandEach, Outcome.andThen, hg, hh, hwaiting, List.flatMap_cons,
        List.flatMap_append, List.length_append, List.append_nil]
    · rw [harcs', harcs]
      by_cases hts : t = s
      · subst hts
        simp [hs]
      · simp [hts]

/-- Taking turns gives the same network and the same number of arcs. -/
theorem expandEach_range (hf : f.WellFormed) :
    f.expandEach w alphabet (List.range f.size) =
      ⟨(f.expand w alphabet).network, [], .ok (f.expansions w alphabet).length⟩ := by
  obtain ⟨g, hg, hstart, hsize, hfinal, harcs⟩ := exists_expandEach_eq hf w
    alphabet List.nodup_range fun s hs => List.mem_range.1 hs
  have hnetwork : g = (f.expand w alphabet).network := by
    refine eq_of_final?_of_arcsFrom (hstart.trans (start_expand hf).symm)
      (hsize.trans (size_expand hf).symm) (fun t _ => ?_) fun t => ?_
    · rw [hfinal, final?_expand hf]
    · rw [harcs, arcsFrom_expand hf]
      rcases Nat.lt_or_ge t f.size with ht | ht
      · rw [if_pos (List.mem_range.2 ht)]
      · rw [arcsFrom_of_size_le ht]
        simp
  rw [hg, hnetwork, length_expansions]

/-- Every state keeps its arcs and gets their pieces behind them, in order; so it does if the states
take turns. The number of pieces depends on the wildcards of the arc, and an arc with the other
wildcard on both sides gets each pair of labels once. What is reported is the number of arcs by
which the network grows. -/
theorem expand_adds_pieces (hf : f.WellFormed)
    (halphabet : checkAlphabet w alphabet = .ok alphabet) :
    let o := f.expand w alphabet
    let n := alphabet.length
    o.result = .ok alphabet ∧
      (o.network.start = f.start ∧ o.network.size = f.size ∧
        ∀ s, o.network.final? s = f.final? s) ∧
      (∀ s, o.network.arcsFrom s =
        f.arcsFrom s ++ (f.arcsFrom s).flatMap (w.expandArc alphabet)) ∧
      (∃ added, f.expandEach w alphabet (List.range f.size) = ⟨o.network, [], .ok added⟩ ∧
        o.network.arcCount = f.arcCount + added ∧
        (alphabet ≠ [] → o.events = [.expanded n added])) ∧
      ∀ a, (w.expandArc alphabet a).length =
          (if a.input = w.other ∧ a.output = w.other then n * (n + 1)
            else if a.input = w.other ∨ a.output = w.other ∨ a.input = w.identity then n
            else 0) ∧
        (a.input = w.other → a.output = w.other → (w.expandArc alphabet a).Nodup ∧
          ∀ b, b ∈ w.expandArc alphabet a ↔ b.weight = a.weight ∧ b.target = a.target ∧
            (b.input ∈ alphabet ∧ b.output = w.other ∨ b.input = w.other ∧ b.output ∈ alphabet ∨
              b.input ∈ alphabet ∧ b.output ∈ alphabet ∧ b.input ≠ b.output)) := by
  intro o n
  obtain ⟨-, hconcrete, hnodup⟩ := checkAlphabet_eq_ok_iff.1 halphabet
  refine ⟨by rw [expand_result hf, eraseDups_of_nodup hnodup],
    ⟨start_expand hf, size_expand hf, final?_expand hf⟩, arcsFrom_expand hf,
    ⟨_, expandEach_range hf, arcCount_expand hf, expand_events hf⟩, fun a => ?_⟩
  refine ⟨Wildcards.length_expandArc w alphabet a, fun hinput houtput => ⟨?_, fun b => ?_⟩⟩
  · exact Wildcards.nodup_expandArc_other hnodup hconcrete hinput houtput
  · exact Wildcards.mem_expandArc_other_iff hnodup hinput houtput

/-- Two states with loops, arcs of every kind, and a pair that is not allowed. -/
theorem expand_adds_pieces_every_kind :
    let f : Network := ⟨#[⟨Weight.zero, [⟨101, 101, Weight.one, 1⟩, ⟨100, 7, Weight.one, 0⟩,
      ⟨7, 100, Weight.one, 1⟩]⟩,
      ⟨Weight.one, [⟨101, 100, Weight.one, 1⟩, ⟨7, 101, Weight.one, 0⟩]⟩], some 0⟩
    let w : Wildcards := ⟨100, 101⟩
    let o := f.expand w [5, 6]
    f.WellFormed ∧ checkAlphabet w [5, 6] = .ok [5, 6] ∧ o.result = .ok [5, 6] ∧
      o.network.arcsFrom 1 = f.arcsFrom 1 ++
        [⟨5, 100, Weight.one, 1⟩, ⟨6, 100, Weight.one, 1⟩, ⟨7, 5, Weight.one, 0⟩,
          ⟨7, 6, Weight.one, 0⟩] ∧
      o.events = [.expanded 2 12] ∧ o.network.arcCount = f.arcCount + 12 ∧
      (w.expandArc [5, 6] ⟨101, 101, Weight.one, 1⟩).length = 2 * (2 + 1) ∧
      (w.expandArc [5, 6] ⟨101, 101, Weight.one, 1⟩).Nodup := by
  intro f w o
  have hf : f.WellFormed := isWellFormed_eq_true_iff.1 (by decide)
  have halphabet : checkAlphabet w [5, 6] = .ok [5, 6] := by decide
  obtain ⟨hresult, -, harcs, ⟨added, -, hcount, hevents⟩, hpieces⟩ :=
    expand_adds_pieces hf halphabet
  have hadded : o.events = [.expanded 2 12] := by decide
  obtain rfl : added = 12 := by
    have hsame := (hevents (by decide)).symm.trans hadded
    simpa using hsame
  obtain ⟨hlength, hother⟩ := hpieces ⟨101, 101, Weight.one, 1⟩
  exact ⟨hf, halphabet, hresult, harcs 1, hadded, hcount, hlength, (hother rfl rfl).1⟩

end Network

end WildcardNet
