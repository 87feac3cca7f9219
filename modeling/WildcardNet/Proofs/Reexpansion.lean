import WildcardNet.Proofs.ArcOrder
import WildcardNet.Proofs.Cleanness
/-!
# Expanding again

When a network is expanded twice, the second expansion also spells out the pieces that the first one
left with a wildcard on one side. These come from the other wildcard on both sides, so only such
arcs have pieces of pieces. If the alphabets are disjoint, the pieces of pieces are the pairs with a
symbol from each, and expanding over one alphabet and then over the other comes to the same as
expanding over both at once. If they are the same, a pair of equal symbols comes up, which the other
wildcard on both sides never stood for.
-/

namespace WildcardNet

/-! ### Pieces of pieces -/

/-- One symbol from each list, in both orders. -/
def mixedPairs (xs ys : List Label) : List (Label × Label) :=
  xs.flatMap fun c => (ys.map fun d => (c, d)) ++ ys.map fun d => (d, c)

theorem mem_mixedPairs_self_iff {symbols : List Label} {pair : Label × Label} :
    pair ∈ mixedPairs symbols symbols ↔ pair.1 ∈ symbols ∧ pair.2 ∈ symbols := by
  obtain ⟨x, y⟩ := pair
  simp only [mixedPairs, List.mem_flatMap, List.mem_append, List.mem_map, Prod.mk.injEq]
  constructor
  · rintro ⟨c, hc, ⟨d, hd, rfl, rfl⟩ | ⟨d, hd, rfl, rfl⟩⟩
    · exact ⟨hc, hd⟩
    · exact ⟨hd, hc⟩
  · rintro ⟨hx, hy⟩
    exact ⟨x, hx, .inl ⟨y, hy, rfl, rfl⟩⟩

/-- Two symbols of a joined list come from the first part, from the second or from both. -/
theorem perm_crossPairs_append (xs ys : List Label) :
    (crossPairs (xs ++ ys)).Perm (crossPairs xs ++ crossPairs ys ++ mixedPairs xs ys) := by
  induction xs with
  | nil => simp [crossPairs, mixedPairs]
  | cons c xs ih =>
    -- The new symbol is paired with the rest of its own list, and then with the other list.
    have hrow : (ys.flatMap fun d => [(c, d), (d, c)]).Perm
        ((ys.map fun d => (c, d)) ++ ys.map fun d => (d, c)) := by
      rw [List.map_eq_flatMap, List.map_eq_flatMap]
      exact (List.flatMap_append_perm ys (fun d => [(c, d)]) fun d => [(d, c)]).symm
    rw [List.perm_iff_count] at ih hrow ⊢
    intro p
    have hp := ih p
    have hq := hrow p
    simp only [List.cons_append, crossPairs, mixedPairs, List.flatMap_append, List.flatMap_cons,
      List.count_append] at hp hq ⊢
    omega

namespace Wildcards

variable {w : Wildcards} {first second : List Label} {input output : Label}

/-- The pieces over the second alphabet of the pieces over the first. -/
def respell (w : Wildcards) (first second : List Label) (input output : Label) :
    List (Label × Label) :=
  (w.spellOut first input output).flatMap fun p => w.spellOut second p.1 p.2

theorem respell_other (second : List Label) (hfirst : ∀ c ∈ first, w.isConcrete c = true) :
    w.respell first second w.other w.other = mixedPairs first second := by
  have hwild : ∀ c ∈ first, w.isWildcard c = false :=
    fun c hc => isWildcard_of_isConcrete (hfirst c hc)
  have hcross : ((crossPairs first).flatMap fun p => w.spellOut second p.1 p.2) = [] := by
    rw [List.flatMap_eq_nil_iff]
    rintro ⟨c, d⟩ hpair
    obtain ⟨hc, hd⟩ := mem_of_mem_crossPairs hpair
    exact spellOut_of_not_wildcard (hwild c hc) (hwild d hd)
  rw [respell, spellOut_other, List.flatMap_append, hcross, List.append_nil, List.flatMap_assoc,
    mixedPairs]
  apply List.flatMap_congr
  intro c hc
  simp [spellOut_other_output (hwild c hc), spellOut_other_input (hwild c hc)]

/-- Only the other wildcard on both sides leaves wildcards in its pieces. -/
theorem respell_eq_nil (second : List Label) (hw : w.identity ≠ w.other)
    (hfirst : ∀ c ∈ first, w.isConcrete c = true)
    (hpair : w.isDisallowedPair input output = false)
    (hne : ¬ (input = w.other ∧ output = w.other)) : w.respell first second input output = [] := by
  have hwild : ∀ c ∈ first, w.isWildcard c = false :=
    fun c hc => isWildcard_of_isConcrete (hfirst c hc)
  rw [respell, List.flatMap_eq_nil_iff]
  intro p hp
  rcases pair_cases hpair with ⟨rfl, rfl⟩ | hother | ⟨rfl, ho⟩ | ⟨hi, rfl⟩ | ⟨hi, ho⟩
  · rw [spellOut_identity hw] at hp
    obtain ⟨c, hc, rfl⟩ := List.mem_map.1 hp
    exact spellOut_of_not_wildcard (hwild c hc) (hwild c hc)
  · exact absurd hother hne
  · rw [spellOut_other_input ho] at hp
    obtain ⟨c, hc, rfl⟩ := List.mem_map.1 hp
    exact spellOut_of_not_wildcard (hwild c hc) ho
  · rw [spellOut_other_output hi] at hp
    obtain ⟨c, hc, rfl⟩ := List.mem_map.1 hp
    exact spellOut_of_not_wildcard hi (hwild c hc)
  · rw [spellOut_of_not_wildcard hi ho] at hp
    exact absurd hp List.not_mem_nil

/-- The pieces over a joined alphabet are those over its parts and the pieces of pieces. -/
theorem perm_spellOut_append (second : List Label) (hw : w.identity ≠ w.other)
    (hfirst : ∀ c ∈ first, w.isConcrete c = true)
    (hpair : w.isDisallowedPair input output = false) :
    (w.spellOut (first ++ second) input output).Perm
      (w.spellOut first input output ++ w.spellOut second input output ++
        w.respell first second input output) := by
  by_cases hother : input = w.other ∧ output = w.other
  · obtain ⟨rfl, rfl⟩ := hother
    have hcross := perm_crossPairs_append first second
    rw [respell_other second hfirst]
    rw [List.perm_iff_count] at hcross ⊢
    intro p
    have hp := hcross p
    simp only [spellOut_other, List.flatMap_append, List.count_append] at hp ⊢
    omega
  · rw [respell_eq_nil second hw hfirst hpair hother, List.append_nil]
    apply List.Perm.of_eq
    rcases pair_cases hpair with ⟨rfl, rfl⟩ | h | ⟨rfl, ho⟩ | ⟨hi, rfl⟩ | ⟨hi, ho⟩
    · simp only [spellOut_identity hw, List.map_append]
    · exact absurd h hother
    · simp only [spellOut_other_input ho, List.map_append]
    · simp only [spellOut_other_output hi, List.map_append]
    · simp only [spellOut_of_not_wildcard hi ho, List.append_nil]

theorem flatMap_expandArc (w : Wildcards) (first second : List Label) (a : Arc) :
    (w.expandArc first a).flatMap (w.expandArc second) =
      (w.respell first second a.input a.output).map fun (i, o) =>
        { a with input := i, output := o } := by
  simp only [expandArc, respell, List.flatMap_map, List.map_flatMap]

theorem perm_expandArc_append (second : List Label) (hw : w.identity ≠ w.other)
    (hfirst : ∀ c ∈ first, w.isConcrete c = true) {a : Arc}
    (ha : w.isDisallowedPair a.input a.output = false) :
    (w.expandArc (first ++ second) a).Perm
      (w.expandArc first a ++ w.expandArc second a ++
        (w.expandArc first a).flatMap (w.expandArc second)) := by
  rw [flatMap_expandArc]
  simp only [expandArc, ← List.map_append]
  exact (perm_spellOut_append second hw hfirst ha).map _

/-- Over one alphabet, an arc with the other wildcard on both sides has all pairs as pieces of
pieces, and any other arc has none. -/
theorem mem_flatMap_expandArc_iff {alphabet : List Label} {a b : Arc} (hw : w.identity ≠ w.other)
    (hconcrete : ∀ c ∈ alphabet, w.isConcrete c = true)
    (ha : w.isDisallowedPair a.input a.output = false) :
    b ∈ (w.expandArc alphabet a).flatMap (w.expandArc alphabet) ↔
      (a.input = w.other ∧ a.output = w.other) ∧ (b.input ∈ alphabet ∧ b.output ∈ alphabet) ∧
        b.weight = a.weight ∧ b.target = a.target := by
  rw [flatMap_expandArc, mem_map_relabel_iff]
  by_cases hother : a.input = w.other ∧ a.output = w.other
  · rw [hother.1, hother.2, respell_other alphabet hconcrete, mem_mixedPairs_self_iff]
    simp
  · rw [respell_eq_nil alphabet hw hconcrete ha hother]
    simp [hother]

end Wildcards

/-- The arc reads a pair that its labels stand for. With the other wildcard on both sides it also
reads every symbol of the alphabet paired with itself. -/
def Arc.ReadsRespelled (w : Wildcards) (known : Label → Prop) (alphabet : List Label) (a : Arc)
    (pair : Label × Label) : Prop :=
  a.ReadsRelative w known pair ∨
    (a.input = w.other ∧ a.output = w.other) ∧ pair.1 ∈ alphabet ∧ pair.2 = pair.1

theorem Arc.readsRespelled_of_other {w : Wildcards} {known : Label → Prop} {alphabet : List Label}
    {a : Arc} {pair : Label × Label} (hw : w.identity ≠ w.other)
    (hconcrete : ∀ c ∈ alphabet, w.isConcrete c = true) (hfresh : ∀ c ∈ alphabet, ¬ known c)
    (ha : a.input = w.other ∧ a.output = w.other) (hx : pair.1 ∈ alphabet)
    (hy : pair.2 ∈ alphabet) : a.ReadsRespelled w known alphabet pair := by
  by_cases heq : pair.2 = pair.1
  · exact .inr ⟨ha, hx, heq⟩
  · left
    rw [ReadsRelative, ha.1, ha.2, Wildcards.reads_other hw]
    exact ⟨⟨hconcrete _ hx, hfresh _ hx⟩, ⟨hconcrete _ hy, hfresh _ hy⟩, Ne.symm heq⟩

namespace Network

variable {f : Network} {w : Wildcards} {first second alphabet : List Label} {known : Label → Prop}
  {s t : StateId} {string : List (Label × Label)} {pair : Label × Label} {a b : Arc}

/-! ### One alphabet after the other -/

theorem perm_arcs_expanded (second : List Label) (hw : w.identity ≠ w.other)
    (hfirst : ∀ c ∈ first, w.isConcrete c = true) {arcs : List Arc}
    (hpairs : ∀ a ∈ arcs, w.isDisallowedPair a.input a.output = false) :
    (arcs ++ arcs.flatMap (w.expandArc first) ++
        (arcs ++ arcs.flatMap (w.expandArc first)).flatMap (w.expandArc second)).Perm
      (arcs ++ arcs.flatMap (w.expandArc (first ++ second))) := by
  rw [List.flatMap_append, List.flatMap_assoc, List.append_assoc,
    ← List.append_assoc (List.flatMap _ _)]
  apply List.Perm.append_left
  have hboth := List.flatMap_append_perm arcs (w.expandArc first) (w.expandArc second)
  have hall := List.flatMap_append_perm arcs
    (fun a => w.expandArc first a ++ w.expandArc second a)
    fun a => (w.expandArc first a).flatMap (w.expandArc second)
  refine ((hboth.append_right _).trans hall).trans (List.Perm.flatMap_left _ fun a ha => ?_)
  exact (Wildcards.perm_expandArc_append second hw hfirst (hpairs a ha)).symm

theorem expand_expand_sameUpToOrder (hf : f.WellFormed) (hw : w.identity ≠ w.other)
    (hfirst : ∀ c ∈ first, w.isConcrete c = true) (hclean : f.Clean w) (second : List Label) :
    ((f.expand w first).network.expand w second).network.SameUpToOrder
      (f.expand w (first ++ second)).network := by
  have hexpand := hf.expand w first
  constructor
  · rw [start_expand hexpand, start_expand hf, start_expand hf]
  · rw [size_expand hexpand, size_expand hf, size_expand hf]
  · intro s
    rw [final?_expand hexpand, final?_expand hf, final?_expand hf]
  · intro s
    rw [arcsFrom_expand hexpand, arcsFrom_expand hf, arcsFrom_expand hf]
    exact perm_arcs_expanded second hw hfirst (hclean s)

theorem SameUpToOrder.strip {g : Network} (h : f.SameUpToOrder g) (hf : f.WellFormed)
    (w : Wildcards) : (f.strip w).network.SameUpToOrder (g.strip w).network := by
  rw [strip_network hf, strip_network (h.wellFormed hf)]
  exact h.pruneArcs hf w.onArc

/-- Expanding is incremental. Over one part of an alphabet and then over the rest it leaves the same
states and arcs as over the whole alphabet at once, and so does closing over the rest. -/
theorem expand_append_sameUpToOrder (hw : w.check = .ok ()) (hf : f.WellFormed)
    (hpairs : f.disallowedPairs w = [])
    (halphabet : checkAlphabet w (first ++ second) = .ok (first ++ second)) :
    ((f.expand w first).result = .ok first ∧
      ((f.expand w first).network.expand w second).result = .ok second ∧
      (f.expand w (first ++ second)).result = .ok (first ++ second) ∧
      ((f.expand w first).network.expand w second).network.SameUpToOrder
        (f.expand w (first ++ second)).network) ∧
    ((f.expand w first).network.close w second).result = .ok second ∧
      (f.close w (first ++ second)).result = .ok (first ++ second) ∧
      ((f.expand w first).network.close w second).network.SameUpToOrder
        (f.close w (first ++ second)).network := by
  obtain ⟨-, -, hne⟩ := Wildcards.check_eq_ok_iff.1 hw
  obtain ⟨-, hconcrete, hnodup⟩ := checkAlphabet_eq_ok_iff.1 halphabet
  have hfirst : ∀ c ∈ first, w.isConcrete c = true :=
    fun c hc => hconcrete c (List.mem_append_left _ hc)
  have hexpand := hf.expand w first
  have hsame := expand_expand_sameUpToOrder hf hne hfirst (clean_iff.2 hpairs) second
  have hdups := eraseDups_of_nodup hnodup
  obtain ⟨hnodup₁, hnodup₂, -⟩ := List.nodup_append.1 hnodup
  rw [expand_result hf, expand_result hf, expand_result hexpand, close_result hexpand,
    close_result hf, hdups, eraseDups_of_nodup hnodup₁, eraseDups_of_nodup hnodup₂,
    close_network hexpand, close_network hf]
  exact ⟨⟨rfl, rfl, rfl, hsame⟩, rfl, rfl, hsame.strip (hexpand.expand w second) w⟩

/-- Two symbols, one after the other. The pair of both comes from a piece of a piece. -/
theorem expand_append_sameUpToOrder_mixed :
    let f : Network := ⟨#[⟨Weight.zero, [⟨101, 101, Weight.one, 1⟩, ⟨100, 100, Weight.one, 1⟩]⟩,
      ⟨Weight.one, [⟨1, 101, Weight.one, 0⟩]⟩], some 0⟩
    let w : Wildcards := ⟨100, 101⟩
    w.check = .ok () ∧ f.WellFormed ∧ f.disallowedPairs w = [] ∧
      checkAlphabet w ([5] ++ [6]) = .ok ([5] ++ [6]) ∧
      ⟨5, 6, Weight.one, 1⟩ ∈ ((f.expand w [5]).network.expand w [6]).network.arcsFrom 0 ∧
      ((f.expand w [5]).network.expand w [6]).network.SameUpToOrder
        (f.expand w ([5] ++ [6])).network ∧
      ((f.expand w [5]).network.close w [6]).network.SameUpToOrder
        (f.close w ([5] ++ [6])).network := by
  intro f w
  have hw : w.check = .ok () := by decide
  have hf : f.WellFormed := isWellFormed_eq_true_iff.1 (by decide)
  have hpairs : f.disallowedPairs w = [] := by decide
  have halphabet : checkAlphabet w ([5] ++ [6]) = .ok ([5] ++ [6]) := by decide
  obtain ⟨⟨-, -, -, hexpand⟩, -, -, hclose⟩ := expand_append_sameUpToOrder hw hf hpairs halphabet
  exact ⟨hw, hf, hpairs, halphabet, by decide +kernel, hexpand, hclose⟩

/-! ### The same alphabet again -/

/-- Expanding twice over an alphabet adds, to what expanding once adds, all pairs over the alphabet
beside every arc with the other wildcard on both sides. -/
theorem mem_arcsFrom_expand_twice_iff (hf : f.WellFormed) (hw : w.identity ≠ w.other)
    (hconcrete : ∀ c ∈ alphabet, w.isConcrete c = true) (hclean : f.Clean w) :
    b ∈ ((f.expand w alphabet).network.expand w alphabet).network.arcsFrom s ↔
      b ∈ (f.expand w alphabet).network.arcsFrom s ∨
        ∃ a ∈ f.arcsFrom s, (a.input = w.other ∧ a.output = w.other) ∧
          (b.input ∈ alphabet ∧ b.output ∈ alphabet) ∧ b.weight = a.weight ∧
            b.target = a.target := by
  rw [mem_arcsFrom_expand_iff (hf.expand w alphabet)]
  constructor
  · rintro (hb | ⟨c, hc, hb⟩)
    · exact .inl hb
    · rcases (mem_arcsFrom_expand_iff hf).1 hc with hc | ⟨a, ha, hc⟩
      · exact .inl ((mem_arcsFrom_expand_iff hf).2 (.inr ⟨c, hc, hb⟩))
      · have hpiece := List.mem_flatMap.2 ⟨c, hc, hb⟩
        rw [Wildcards.mem_flatMap_expandArc_iff hw hconcrete (hclean s a ha)] at hpiece
        exact .inr ⟨a, ha, hpiece⟩
  · rintro (hb | ⟨a, ha, hb⟩)
    · exact .inl hb
    · rw [← Wildcards.mem_flatMap_expandArc_iff hw hconcrete (hclean s a ha)] at hb
      obtain ⟨c, hc, hb⟩ := List.mem_flatMap.1 hb
      exact .inr ⟨c, (mem_arcsFrom_expand_iff hf).2 (.inr ⟨a, ha, hc⟩), hb⟩

/-- A network that is expanded twice can read a pair between two states if and only if the network
can when its arcs read respelled pairs too. -/
theorem exists_step_expand_twice_iff (hf : f.WellFormed) (hw : w.identity ≠ w.other)
    (hconcrete : ∀ c ∈ alphabet, w.isConcrete c = true) (hnodup : alphabet.Nodup)
    (hfresh : ∀ c ∈ alphabet, ¬ known c) (hclean : f.Clean w) :
    (∃ b ∈ ((f.expand w alphabet).network.expand w alphabet).network.arcsFrom s,
        b.ReadsRelative w (fun c => known c ∨ c ∈ alphabet) pair ∧ b.target = t) ↔
      ∃ a ∈ f.arcsFrom s, a.ReadsRespelled w known alphabet pair ∧ a.target = t := by
  have honce : (∃ b ∈ (f.expand w alphabet).network.arcsFrom s,
      b.ReadsRelative w (fun c => known c ∨ c ∈ alphabet) pair ∧ b.target = t) ↔
        ∃ a ∈ f.arcsFrom s, a.ReadsRelative w known pair ∧ a.target = t :=
    exists_step_expand_iff hf hw hconcrete hnodup hfresh hclean
  have hwild : ∀ c ∈ alphabet, w.isWildcard c = false :=
    fun c hc => Wildcards.isWildcard_of_isConcrete (hconcrete c hc)
  constructor
  · -- A piece of a piece has no wildcards left, so it reads its own labels.
    rintro ⟨b, hb, hread, htarget⟩
    rcases (mem_arcsFrom_expand_twice_iff hf hw hconcrete hclean).1 hb with
      hb | ⟨a, ha, hother, ⟨hi, ho⟩, -, heq⟩
    · obtain ⟨a, ha, hread, htarget⟩ := honce.1 ⟨b, hb, hread, htarget⟩
      exact ⟨a, ha, .inl hread, htarget⟩
    · obtain ⟨hx, hy⟩ := (Wildcards.reads_concrete (hwild _ hi) (hwild _ ho)).1 hread
      rw [← hx] at hi
      rw [← hy] at ho
      exact ⟨a, ha, Arc.readsRespelled_of_other hw hconcrete hfresh hother hi ho,
        heq.symm.trans htarget⟩
  · rintro ⟨a, ha, hread | ⟨hother, hx, hy⟩, htarget⟩
    · obtain ⟨b, hb, hread, htarget⟩ := honce.2 ⟨a, ha, hread, htarget⟩
      exact ⟨b, (mem_arcsFrom_expand_twice_iff hf hw hconcrete hclean).2 (.inl hb), hread, htarget⟩
    · have hy' : pair.2 ∈ alphabet := hy ▸ hx
      refine ⟨⟨pair.1, pair.2, a.weight, a.target⟩, ?_, ?_, htarget⟩
      · rw [mem_arcsFrom_expand_twice_iff hf hw hconcrete hclean]
        exact .inr ⟨a, ha, hother, ⟨hx, hy'⟩, rfl, rfl⟩
      · exact (Wildcards.reads_concrete (hwild _ hx) (hwild _ hy')).2 ⟨rfl, rfl⟩

theorem accepts_expand_twice_iff (hf : f.WellFormed) (hw : w.identity ≠ w.other)
    (hconcrete : ∀ c ∈ alphabet, w.isConcrete c = true) (hnodup : alphabet.Nodup)
    (hfresh : ∀ c ∈ alphabet, ¬ known c) (hclean : f.Clean w) :
    ((f.expand w alphabet).network.expand w alphabet).network.Accepts
        (Arc.ReadsRelative w fun c => known c ∨ c ∈ alphabet) string ↔
      f.Accepts (Arc.ReadsRespelled w known alphabet) string := by
  have hexpand := hf.expand w alphabet
  apply accepts_congr
  · rw [start_expand hexpand, start_expand hf]
  · intro s
    apply isFinal_congr
    rw [final?_expand hexpand, final?_expand hf]
  · intro pair _ s t
    exact exists_step_expand_twice_iff hf hw hconcrete hnodup hfresh hclean

/-- Stripping a clean network leaves what it accepts over the symbols that stand on its arcs. -/
theorem accepts_strip_within_iff (hf : f.WellFormed) (hw : w.identity ≠ w.other)
    (hclean : f.Clean w) (hknown : f.MentionsOnly w known) :
    (f.strip w).network.Accepts Arc.ReadsLiterally string ↔
      (∀ pair ∈ string, WithinSymbols known pair) ∧
        f.Accepts (Arc.ReadsRelative w known) string := by
  rw [accepts_strip_iff hf]
  constructor
  · intro haccepts
    have hwithin := withinSymbols_of_accepts hknown haccepts
    exact ⟨hwithin, (accepts_within_iff hw hclean hwithin).1 haccepts⟩
  · rintro ⟨hwithin, haccepts⟩
    exact (accepts_within_iff hw hclean hwithin).2 haccepts

theorem MentionsOnly.mono {listed : Label → Prop} (h : f.MentionsOnly w known)
    (himp : ∀ c, known c → listed c) : f.MentionsOnly w listed := by
  intro st hst a ha
  obtain ⟨hi, ho⟩ := h st hst a ha
  exact ⟨fun hc => himp _ (hi hc), fun hc => himp _ (ho hc)⟩

/-- A closed network accepts what the expanded one does over the symbols of the network and the
alphabet. -/
theorem accepts_close_within_iff (hf : f.WellFormed) (hw : w.identity ≠ w.other)
    (hconcrete : ∀ c ∈ alphabet, w.isConcrete c = true) (hclean : f.Clean w)
    (hknown : f.MentionsOnly w known) (hmem : ∀ c ∈ alphabet, known c) :
    (f.close w alphabet).network.Accepts Arc.ReadsLiterally string ↔
      (∀ pair ∈ string, WithinSymbols known pair) ∧
        (f.expand w alphabet).network.Accepts (Arc.ReadsRelative w known) string := by
  rw [close_network hf]
  apply accepts_strip_within_iff (hf.expand w alphabet) hw (hclean.expand hf hw hconcrete)
  apply (hknown.expand hf hw hconcrete hclean).mono
  intro c hc
  exact hc.elim id (hmem c)

/-- Beside every arc with the other wildcard on both sides stands one with the identity wildcard on
both sides that leads to the same state. -/
def IdentityBesideOther (f : Network) (w : Wildcards) : Prop :=
  ∀ s, ∀ a ∈ f.arcsFrom s, a.input = w.other ∧ a.output = w.other →
    ∃ b ∈ f.arcsFrom s, (b.input = w.identity ∧ b.output = w.identity) ∧ b.target = a.target

theorem accepts_respelled_iff (hconcrete : ∀ c ∈ alphabet, w.isConcrete c = true)
    (hfresh : ∀ c ∈ alphabet, ¬ known c)
    (h : (∀ pair ∈ string, pair.1 ∈ alphabet → pair.2 ≠ pair.1) ∨ f.IdentityBesideOther w) :
    f.Accepts (Arc.ReadsRespelled w known alphabet) string ↔
      f.Accepts (Arc.ReadsRelative w known) string := by
  refine accepts_congr rfl (fun _ => Iff.rfl) fun pair hpair s t => ⟨?_, ?_⟩
  · rintro ⟨a, ha, hread | ⟨hother, hx, hy⟩, htarget⟩
    · exact ⟨a, ha, hread, htarget⟩
    · rcases h with hdiffer | hbeside
      · exact absurd hy (hdiffer pair hpair hx)
      · obtain ⟨b, hb, ⟨hi, ho⟩, heq⟩ := hbeside s a ha hother
        refine ⟨b, hb, ?_, heq.trans htarget⟩
        rw [Arc.ReadsRelative, hi, ho, Wildcards.reads_identity]
        exact ⟨⟨hconcrete _ hx, hfresh _ hx⟩, hy⟩
  · rintro ⟨a, ha, hread, htarget⟩
    exact ⟨a, ha, .inl hread, htarget⟩

/-- Expanding a network again over the same alphabet, or closing it over the alphabet afterwards,
makes a difference only where the other wildcard stands on both sides of an arc: the arc comes to
read every symbol of the alphabet paired with itself. Strings without such pairs are not affected,
nor is a network in which the identity wildcard reads such pairs anyway. -/
theorem accepts_reexpanded_iff (hw : w.check = .ok ()) (hf : f.WellFormed)
    (hpairs : f.disallowedPairs w = []) (hknown : f.MentionsOnly w known)
    (halphabet : checkAlphabet w alphabet = .ok alphabet) (hfresh : ∀ c ∈ alphabet, ¬ known c) :
    let once := (f.expand w alphabet).network
    let grown := fun c => known c ∨ c ∈ alphabet
    ((f.expand w alphabet).result = .ok alphabet ∧ (once.expand w alphabet).result = .ok alphabet ∧
      (f.close w alphabet).result = .ok alphabet ∧ (once.close w alphabet).result = .ok alphabet) ∧
    ∀ string,
      ((once.expand w alphabet).network.Accepts (Arc.ReadsRelative w grown) string ↔
        f.Accepts (Arc.ReadsRespelled w known alphabet) string) ∧
      ((once.close w alphabet).network.Accepts Arc.ReadsLiterally string ↔
        (∀ pair ∈ string, WithinSymbols grown pair) ∧
          f.Accepts (Arc.ReadsRespelled w known alphabet) string) ∧
      ((∀ pair ∈ string, pair.1 ∈ alphabet → pair.2 ≠ pair.1) ∨ f.IdentityBesideOther w →
        ((once.expand w alphabet).network.Accepts (Arc.ReadsRelative w grown) string ↔
          once.Accepts (Arc.ReadsRelative w grown) string) ∧
        ((once.close w alphabet).network.Accepts Arc.ReadsLiterally string ↔
          (f.close w alphabet).network.Accepts Arc.ReadsLiterally string)) := by
  intro once grown
  obtain ⟨-, -, hne⟩ := Wildcards.check_eq_ok_iff.1 hw
  obtain ⟨-, hconcrete, hnodup⟩ := checkAlphabet_eq_ok_iff.1 halphabet
  have hclean := clean_iff.2 hpairs
  have honce : once.WellFormed := hf.expand w alphabet
  have hmem : ∀ c ∈ alphabet, grown c := fun _ hc => .inr hc
  refine ⟨?_, fun string => ?_⟩
  · rw [expand_result hf, expand_result honce, close_result hf, close_result honce,
      eraseDups_of_nodup hnodup]
    exact ⟨rfl, rfl, rfl, rfl⟩
  · have htwice : (once.expand w alphabet).network.Accepts (Arc.ReadsRelative w grown) string ↔
        f.Accepts (Arc.ReadsRespelled w known alphabet) string :=
      accepts_expand_twice_iff hf hne hconcrete hnodup hfresh hclean
    have hexpand : once.Accepts (Arc.ReadsRelative w grown) string ↔
        f.Accepts (Arc.ReadsRelative w known) string :=
      accepts_expand_iff hf hne hconcrete hnodup hfresh hclean
    rw [accepts_close_within_iff hf hne hconcrete hclean (hknown.mono fun _ => .inl) hmem,
      accepts_close_within_iff honce hne hconcrete (hclean.expand hf hne hconcrete)
        (hknown.expand hf hne hconcrete hclean) hmem]
    refine ⟨htwice, and_congr_right fun _ => htwice, fun h => ?_⟩
    have hsame := accepts_respelled_iff hconcrete hfresh h
    have hagree := htwice.trans (hsame.trans hexpand.symm)
    exact ⟨hagree, and_congr_right fun _ => hagree⟩

/-- With an identity wildcard beside the other wildcard, expanding again makes no difference. -/
theorem accepts_reexpanded_beside_identity :
    let f : Network := ⟨#[⟨Weight.zero, [⟨101, 101, Weight.one, 1⟩, ⟨100, 100, Weight.one, 1⟩]⟩,
      ⟨Weight.one, [⟨1, 101, Weight.one, 0⟩]⟩], some 0⟩
    let w : Wildcards := ⟨100, 101⟩
    let known : Label → Prop := fun c => c = 1
    let once := (f.expand w [5, 6]).network
    let grown : Label → Prop := fun c => known c ∨ c ∈ [5, 6]
    w.check = .ok () ∧ f.WellFormed ∧ f.disallowedPairs w = [] ∧ f.MentionsOnly w known ∧
      checkAlphabet w [5, 6] = .ok [5, 6] ∧ (∀ c ∈ [5, 6], ¬ known c) ∧ f.IdentityBesideOther w ∧
      ∀ string,
        ((once.expand w [5, 6]).network.Accepts (Arc.ReadsRelative w grown) string ↔
          once.Accepts (Arc.ReadsRelative w grown) string) ∧
        ((once.close w [5, 6]).network.Accepts Arc.ReadsLiterally string ↔
          (f.close w [5, 6]).network.Accepts Arc.ReadsLiterally string) := by
  intro f w known once grown
  have hw : w.check = .ok () := by decide
  have hf : f.WellFormed := isWellFormed_eq_true_iff.1 (by decide)
  have hpairs : f.disallowedPairs w = [] := by decide
  have hknown : f.MentionsOnly w known := by
    simp only [MentionsOnly, f]
    decide
  have halphabet : checkAlphabet w [5, 6] = .ok [5, 6] := by decide
  have hfresh : ∀ c ∈ [5, 6], ¬ known c := by simp [known]
  have hbeside : f.IdentityBesideOther w := by
    have h : ∀ s < f.size, ∀ a ∈ f.arcsFrom s, a.input = w.other ∧ a.output = w.other →
        ∃ b ∈ f.arcsFrom s, (b.input = w.identity ∧ b.output = w.identity) ∧
          b.target = a.target := by decide
    intro s a ha
    exact h s (lt_size_of_mem_arcsFrom ha) a ha
  refine ⟨hw, hf, hpairs, hknown, halphabet, hfresh, hbeside, fun string => ?_⟩
  exact ((accepts_reexpanded_iff hw hf hpairs hknown halphabet hfresh).2 string).2.2 (.inr hbeside)

/-- One arc with the other wildcard on both sides. Expanded once it does not read the symbol paired
with itself, and closed it is empty; expanded before, it reads that pair. -/
theorem reexpanded_reads_equal_symbols :
    let f : Network := ⟨#[⟨Weight.zero, [⟨101, 101, Weight.one, 1⟩]⟩, ⟨Weight.one, []⟩], some 0⟩
    let w : Wildcards := ⟨100, 101⟩
    let known : Label → Prop := fun _ => False
    let once := (f.expand w [5]).network
    let grown : Label → Prop := fun c => known c ∨ c ∈ [5]
    w.check = .ok () ∧ f.WellFormed ∧ f.disallowedPairs w = [] ∧ f.MentionsOnly w known ∧
      checkAlphabet w [5] = .ok [5] ∧ (∀ c ∈ [5], ¬ known c) ∧
      (¬ once.Accepts (Arc.ReadsRelative w grown) [(5, 5)] ∧
        (once.expand w [5]).network.Accepts (Arc.ReadsRelative w grown) [(5, 5)]) ∧
      ¬ (f.close w [5]).network.Accepts Arc.ReadsLiterally [(5, 5)] ∧
        (once.close w [5]).network.Accepts Arc.ReadsLiterally [(5, 5)] := by
  intro f w known once grown
  have hw : w.check = .ok () := by decide
  have hf : f.WellFormed := isWellFormed_eq_true_iff.1 (by decide)
  have hpairs : f.disallowedPairs w = [] := by decide
  have hknown : f.MentionsOnly w known := by
    simp only [MentionsOnly, f]
    decide
  have halphabet : checkAlphabet w [5] = .ok [5] := by decide
  have hfresh : ∀ c ∈ [5], ¬ known c := by simp [known]
  have hne : w.identity ≠ w.other := by decide
  obtain ⟨-, hconcrete, hnodup⟩ := checkAlphabet_eq_ok_iff.1 halphabet
  have hclean := clean_iff.2 hpairs
  have hother : ∀ s < f.size, ∀ a ∈ f.arcsFrom s, a.input = w.other ∧ a.output = w.other := by
    decide
  have hempty : (f.close w [5]).network = {} := by decide +kernel
  have hclosed : (once.close w [5]).network = ⟨#[⟨Weight.zero, [⟨5, 5, Weight.one, 1⟩,
    ⟨5, 5, Weight.one, 1⟩]⟩, ⟨Weight.one, []⟩], some 0⟩ := by decide +kernel
  refine ⟨hw, hf, hpairs, hknown, halphabet, hfresh, ⟨?_, ?_⟩, ?_, ?_⟩
  · rw [accepts_expand_iff hf hne hconcrete hnodup hfresh hclean]
    intro haccepts
    obtain ⟨s, a, ha, hread⟩ := haccepts.exists_reader (5, 5) (List.mem_singleton_self _)
    obtain ⟨hi, ho⟩ := hother s (lt_size_of_mem_arcsFrom ha) a ha
    rw [Arc.ReadsRelative, hi, ho, Wildcards.reads_other hne] at hread
    exact hread.2.2 rfl
  · rw [accepts_expand_twice_iff hf hne hconcrete hnodup hfresh hclean]
    have hread : Arc.ReadsRespelled w known [5] ⟨101, 101, Weight.one, 1⟩ (5, 5) :=
      .inr ⟨⟨rfl, rfl⟩, List.mem_singleton_self 5, rfl⟩
    exact ⟨0, rfl, .cons List.mem_cons_self hread (.nil ⟨_, rfl, by decide⟩)⟩
  · rintro ⟨start, hstart, -⟩
    rw [hempty] at hstart
    cases hstart
  · rw [hclosed]
    exact ⟨0, rfl, .cons List.mem_cons_self rfl (.nil ⟨_, rfl, by decide⟩)⟩

end Network

end WildcardNet
