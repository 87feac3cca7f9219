import WildcardNet.Proofs.Linking
import WildcardNet.Reading
/-!
# Synchronizing keeps the relation of a rule

In a compiled rule an alternative leaves the outer states over an arc that only reads, crosses a
separator, and comes back over an arc that only writes. Synchronizing replaces these three arcs by
one, so a run of the rule and a run of the synchronized network go through the same outer states and
show the same symbols, once epsilons and the marks of the rule are left out.
-/

namespace WildcardNet

/-! ### Visible symbols -/

namespace RuleMarks

variable {rule : RuleMarks} {w : Wildcards} {c : Label}

/-- The label is neither an epsilon nor the separator. -/
def isVisible (rule : RuleMarks) (c : Label) : Bool :=
  c != Label.epsilon && c != rule.hardEpsilon && c != rule.separator

/-- What is left of a string without epsilons and separators. -/
def visible (rule : RuleMarks) (labels : List Label) : List Label := labels.filter rule.isVisible

theorem visible_cons (rule : RuleMarks) (c : Label) (labels : List Label) :
    rule.visible (c :: labels) = rule.visible [c] ++ rule.visible labels := by
  rw [visible, ← List.singleton_append, List.filter_append, visible, visible]

theorem visible_separator (rule : RuleMarks) : rule.visible [rule.separator] = [] := by
  simp [visible, isVisible]

theorem visible_epsilon (h : c = Label.epsilon ∨ c = rule.hardEpsilon) : rule.visible [c] = [] := by
  rcases h with rfl | rfl <;> simp [visible, isVisible]

theorem visible_weaken (rule : RuleMarks) (c : Label) :
    rule.visible [rule.weaken c] = rule.visible [c] := by
  rw [weaken]
  split
  · next h => rw [visible_epsilon (.inl rfl), visible_epsilon (.inr h)]
  · rfl

/-- The arcs of two runs show the same symbols on both sides. -/
def SameSymbols (rule : RuleMarks) (xs ys : List Arc) : Prop :=
  rule.visible (xs.map Arc.input) = rule.visible (ys.map Arc.input) ∧
    rule.visible (xs.map Arc.output) = rule.visible (ys.map Arc.output)

theorem SameSymbols.cons {xs ys : List Arc} (h : rule.SameSymbols xs ys) (a : Arc) :
    rule.SameSymbols (a :: xs) (a :: ys) := by
  constructor
  · rw [List.map_cons, List.map_cons, visible_cons, h.1, ← visible_cons]
  · rw [List.map_cons, List.map_cons, visible_cons, h.2, ← visible_cons]

/-! ### The arcs of an alternative -/

/-- The arc reads a label, neither the separator nor a wildcard, and writes nothing. -/
def ReadsOnly (rule : RuleMarks) (w : Wildcards) (a : Arc) : Prop :=
  (a.output = Label.epsilon ∨ a.output = rule.hardEpsilon) ∧ a.input ≠ rule.separator ∧
    w.isWildcard a.input = false

/-- The arc reads nothing and writes a label, neither the separator nor a wildcard. -/
def WritesOnly (rule : RuleMarks) (w : Wildcards) (a : Arc) : Prop :=
  (a.input = Label.epsilon ∨ a.input = rule.hardEpsilon) ∧ a.output ≠ rule.separator ∧
    w.isWildcard a.output = false

/-- The arc has the separator on both sides. -/
def Separates (rule : RuleMarks) (a : Arc) : Prop :=
  a.input = rule.separator ∧ a.output = rule.separator

instance {a : Arc} : Decidable (rule.ReadsOnly w a) := instDecidableAnd

instance {a : Arc} : Decidable (rule.WritesOnly w a) := instDecidableAnd

instance {a : Arc} : Decidable (rule.Separates a) := instDecidableAnd

/-- The three arcs of an alternative show what their link shows. -/
theorem SameSymbols.alternative {xs ys : List Arc} (h : rule.SameSymbols xs ys)
    {first bridge last : Arc} (hfirst : rule.ReadsOnly w first) (hbridge : rule.Separates bridge)
    (hlast : rule.WritesOnly w last) (weight : Weight) (target : StateId) :
    rule.SameSymbols (first :: bridge :: last :: xs)
      (⟨rule.weaken first.input, rule.weaken last.output, weight, target⟩ :: ys) := by
  constructor
  · calc rule.visible ((first :: bridge :: last :: xs).map Arc.input)
        = rule.visible [first.input] ++ rule.visible (xs.map Arc.input) := by
          simp only [List.map_cons, visible_cons rule _ (_ :: _), hbridge.1, visible_separator,
            visible_cons rule _ (xs.map _), visible_epsilon hlast.1, List.nil_append]
      _ = _ := by rw [h.1, ← visible_weaken, ← visible_cons, List.map_cons]
  · calc rule.visible ((first :: bridge :: last :: xs).map Arc.output)
        = rule.visible [last.output] ++ rule.visible (xs.map Arc.output) := by
          simp only [List.map_cons, visible_cons rule _ (_ :: _), hbridge.2, visible_separator,
            visible_cons rule _ (xs.map _), visible_epsilon hfirst.1, List.nil_append]
      _ = _ := by rw [h.2, ← visible_weaken, ← visible_cons, List.map_cons]

/-- The link of an alternative has the label that is read and the label that is written. -/
theorem link_eq (hw : w.check = .ok ()) {first : PlacedArc} {last : Arc}
    (hfirst : rule.ReadsOnly w first.arc) (hlast : rule.WritesOnly w last) :
    rule.link w first last =
      ⟨first.source, rule.weaken first.arc.input, rule.weaken last.output, Weight.one,
        last.target⟩ := by
  have hweaken {c : Label} (hc : w.isWildcard c = false) : rule.weaken c ≠ w.identity := by
    rw [weaken]
    split
    · exact (Wildcards.check_eq_ok_iff.1 hw).1.symm
    · exact (Wildcards.isWildcard_eq_false_iff.1 hc).1
  simp [link, Wildcards.unbind, hweaken hfirst.2.2, hweaken hlast.2.2]

theorem weaken_ne_separator (hrule : rule.check w = .ok ()) (hc : c ≠ rule.separator) :
    rule.weaken c ≠ rule.separator := by
  obtain ⟨hsep, -⟩ := check_eq_ok_iff.1 hrule
  rw [weaken]
  split
  · exact (Wildcards.isConcrete_eq_true_iff.1 hsep).1.symm
  · exact hc

theorem ne_separator (hrule : rule.check w = .ok ())
    (hc : c = Label.epsilon ∨ c = rule.hardEpsilon) : c ≠ rule.separator := by
  obtain ⟨hsep, -, hne⟩ := check_eq_ok_iff.1 hrule
  rcases hc with rfl | rfl
  · exact (Wildcards.isConcrete_eq_true_iff.1 hsep).1.symm
  · exact hne.symm

end RuleMarks

/-! ### Rule networks -/

/-- Where a state of a compiled rule lies: outside the alternatives, or inside one, on this or that
side of its separator. -/
inductive Zone
  | outer
  | beforeSeparator
  | afterSeparator
deriving DecidableEq

namespace Network

variable {f : Network} {rule : RuleMarks} {w : Wildcards} {zone : StateId → Zone}
  {s t : StateId} {a : Arc} {arcs : List Arc}

/-- The network spells its alternatives as three arcs each: one that reads a label and writes
nothing, a separator, and one that reads nothing and writes a label. -/
structure IsRuleNetwork (f : Network) (rule : RuleMarks) (w : Wildcards) (zone : StateId → Zone) :
    Prop where
  start_outer {s : StateId} : s ∈ f.start → zone s = .outer
  final_outer {s : StateId} : f.IsFinal s → zone s = .outer
  outer_arc {s : StateId} {a : Arc} : zone s = .outer → a ∈ f.arcsFrom s →
    (zone a.target = .outer ∧ a.input ≠ rule.separator) ∨
      (zone a.target = .beforeSeparator ∧ rule.ReadsOnly w a)
  before_arc {s : StateId} {a : Arc} : zone s = .beforeSeparator → a ∈ f.arcsFrom s →
    zone a.target = .afterSeparator ∧ rule.Separates a
  after_arc {s : StateId} {a : Arc} : zone s = .afterSeparator → a ∈ f.arcsFrom s →
    zone a.target = .outer ∧ rule.WritesOnly w a

/-- A run of a rule between outer states: it takes single arcs and whole alternatives. -/
inductive RuleRun (f : Network) (zone : StateId → Zone) : StateId → List Arc → StateId → Prop
  | nil (s : StateId) : RuleRun f zone s [] s
  | keep {s t : StateId} {a : Arc} {arcs : List Arc} (leaves : a ∈ f.arcsFrom s)
      (outer : zone a.target = .outer) (rest : RuleRun f zone a.target arcs t) :
      RuleRun f zone s (a :: arcs) t
  | alternative {s t : StateId} {first bridge last : Arc} {arcs : List Arc}
      (leaves : first ∈ f.arcsFrom s) (inside : zone first.target = .beforeSeparator)
      (crosses : bridge ∈ f.arcsFrom first.target) (returns : last ∈ f.arcsFrom bridge.target)
      (rest : RuleRun f zone last.target arcs t) :
      RuleRun f zone s (first :: bridge :: last :: arcs) t

theorem RuleRun.run (h : f.RuleRun zone s arcs t) : f.Run s arcs t := by
  induction h with
  | nil s => exact .nil s
  | keep leaves _ _ ih => exact .cons leaves ih
  | alternative leaves _ crosses returns _ ih =>
    exact .cons leaves (.cons crosses (.cons returns ih))

namespace IsRuleNetwork

variable (hzone : f.IsRuleNetwork rule w zone)

include hzone

theorem input_ne_separator (hs : zone s = .outer) (ha : a ∈ f.arcsFrom s) :
    a.input ≠ rule.separator := by
  rcases hzone.outer_arc hs ha with ⟨-, hne⟩ | ⟨-, hreads⟩
  · exact hne
  · exact hreads.2.1

theorem readsOnly (hs : zone s = .outer) (ha : a ∈ f.arcsFrom s)
    (hbefore : zone a.target = .beforeSeparator) : rule.ReadsOnly w a := by
  rcases hzone.outer_arc hs ha with ⟨houter, -⟩ | ⟨-, hreads⟩
  · simp [hbefore] at houter
  · exact hreads

/-- A run that enters an alternative has to go through it before it comes to an outer state. -/
theorem ruleRun {s t : StateId} {arcs : List Arc} (hs : zone s = .outer) (ht : zone t = .outer)
    (hrun : f.Run s arcs t) : f.RuleRun zone s arcs t := by
  -- The recursion is on the number of arcs, as an alternative takes up three of them at once.
  cases hrun with
  | nil => exact .nil s
  | @cons _ _ first arcs leaves rest =>
    rcases hzone.outer_arc hs leaves with ⟨houter, -⟩ | ⟨hbefore, -⟩
    · exact .keep leaves houter (ruleRun houter ht rest)
    · cases rest with
      | nil => simp [hbefore] at ht
      | @cons _ _ bridge arcs crosses rest =>
        obtain ⟨hafter, -⟩ := hzone.before_arc hbefore crosses
        cases rest with
        | nil => simp [hafter] at ht
        | @cons _ _ last arcs returns rest =>
          obtain ⟨houter, -⟩ := hzone.after_arc hafter returns
          exact .alternative leaves hbefore crosses returns (ruleRun houter ht rest)
termination_by arcs.length

/-! ### The arcs of a linked rule network -/

/-- The links out of an outer state are those of its alternatives. -/
theorem mem_arcsFrom_withLinks_iff (hf : f.WellFormed) (hw : w.check = .ok ())
    (hs : zone s = .outer) :
    a ∈ (f.withLinks rule w).arcsFrom s ↔
      a ∈ f.arcsFrom s ∨
        ∃ first ∈ f.arcsFrom s, zone first.target = .beforeSeparator ∧
          ∃ bridge ∈ f.arcsFrom first.target, ∃ last ∈ f.arcsFrom bridge.target,
            ⟨rule.weaken first.input, rule.weaken last.output, Weight.one, last.target⟩ = a := by
  rw [Network.mem_arcsFrom_withLinks_iff hf]
  refine or_congr_right (exists_congr fun first => and_congr_right fun hfirst => ?_)
  have hlink {bridge last : Arc} (hbefore : zone first.target = .beforeSeparator)
      (hbridge : bridge ∈ f.arcsFrom first.target) (hlast : last ∈ f.arcsFrom bridge.target) :
      (rule.link w ⟨s, first⟩ last).arc =
        ⟨rule.weaken first.input, rule.weaken last.output, Weight.one, last.target⟩ := by
    have hafter := (hzone.before_arc hbefore hbridge).1
    rw [RuleMarks.link_eq hw (hzone.readsOnly hs hfirst hbefore) (hzone.after_arc hafter hlast).2]
  constructor
  · rintro ⟨-, bridge, hbridge, hsep, last, hlast, rfl⟩
    rcases hzone.outer_arc hs hfirst with ⟨houter, -⟩ | ⟨hbefore, -⟩
    · exact absurd hsep (hzone.input_ne_separator houter hbridge)
    · exact ⟨hbefore, bridge, hbridge, last, hlast, (hlink hbefore hbridge hlast).symm⟩
  · rintro ⟨hbefore, bridge, hbridge, last, hlast, rfl⟩
    have hopens : rule.opens first = true := by
      rcases (hzone.readsOnly hs hfirst hbefore).1 with h | h <;>
        simp [RuleMarks.opens, RuleMarks.weaken, h]
    exact ⟨hopens, bridge, hbridge, (hzone.before_arc hbefore hbridge).2.1, last, hlast,
      hlink hbefore hbridge hlast⟩

/-- What leaves a state before a separator is a separator, in the linked network as well. -/
theorem input_of_mem_arcsFrom_withLinks (hf : f.WellFormed) (hrule : rule.check w = .ok ())
    (hs : zone s = .beforeSeparator) (ha : a ∈ (f.withLinks rule w).arcsFrom s) :
    a.input = rule.separator := by
  rcases (Network.mem_arcsFrom_withLinks_iff hf).1 ha with ha | ⟨first, hfirst, -, bridge, hbridge,
    hsep, -⟩
  · exact (hzone.before_arc hs ha).2.1
  · have hafter := (hzone.before_arc hs hfirst).1
    have hepsilon := (hzone.after_arc hafter hbridge).2.1
    exact absurd hsep (RuleMarks.ne_separator hrule hepsilon)

/-! ### Runs of a linked rule network -/

/-- Every run of the rule has a run of the linked network beside it that takes no separator. -/
theorem exists_linked_run (hf : f.WellFormed) (hw : w.check = .ok ())
    (hrule : rule.check w = .ok ()) (hs : zone s = .outer) (hrun : f.RuleRun zone s arcs t) :
    ∃ linked, (f.withLinks rule w).Run s linked t ∧ (∀ a ∈ linked, a.input ≠ rule.separator) ∧
      rule.SameSymbols arcs linked := by
  induction hrun with
  | nil s => exact ⟨[], .nil s, by simp, rfl, rfl⟩
  | @keep s t a arcs leaves outer _ ih =>
    obtain ⟨linked, hlinked, hne, hsame⟩ := ih outer
    have hinput := hzone.input_ne_separator hs leaves
    have hleaves := (hzone.mem_arcsFrom_withLinks_iff hf hw hs).2 (.inl leaves)
    exact ⟨a :: linked, .cons hleaves hlinked, List.forall_mem_cons.2 ⟨hinput, hne⟩, hsame.cons a⟩
  | @alternative s t first bridge last arcs leaves inside crosses returns _ ih =>
    have hfirst := hzone.readsOnly hs leaves inside
    obtain ⟨hafter, hbridge⟩ := hzone.before_arc inside crosses
    obtain ⟨houter, hlast⟩ := hzone.after_arc hafter returns
    obtain ⟨linked, hlinked, hne, hsame⟩ := ih houter
    have hleaves := (hzone.mem_arcsFrom_withLinks_iff hf hw hs).2
      (.inr ⟨first, leaves, inside, bridge, crosses, last, returns, rfl⟩)
    refine ⟨_ :: linked, .cons hleaves hlinked, List.forall_mem_cons.2 ⟨?_, hne⟩, ?_⟩
    · exact RuleMarks.weaken_ne_separator hrule hfirst.2.1
    · exact hsame.alternative hfirst hbridge hlast _ _

/-- Every run of the linked network that takes no separator comes from a run of the rule. -/
theorem exists_ruleRun (hf : f.WellFormed) (hw : w.check = .ok ())
    (hrule : rule.check w = .ok ()) (hs : zone s = .outer) (ht : zone t = .outer)
    {linked : List Arc} (hrun : (f.withLinks rule w).Run s linked t)
    (hne : ∀ a ∈ linked, a.input ≠ rule.separator) :
    ∃ arcs, f.RuleRun zone s arcs t ∧ rule.SameSymbols arcs linked := by
  induction hrun with
  | nil s => exact ⟨[], .nil s, rfl, rfl⟩
  | @cons s t a linked leaves rest ih =>
    obtain ⟨-, hlater⟩ := List.forall_mem_cons.1 hne
    rcases (hzone.mem_arcsFrom_withLinks_iff hf hw hs).1 leaves with
      ha | ⟨first, hfirst, hbefore, bridge, hbridge, last, hlast, rfl⟩
    · rcases hzone.outer_arc hs ha with ⟨houter, -⟩ | ⟨hbefore, -⟩
      · obtain ⟨arcs, harcs, hsame⟩ := ih houter ht hlater
        exact ⟨a :: arcs, .keep ha houter harcs, hsame.cons a⟩
      · -- Without its separator the alternative leads nowhere.
        cases rest with
        | nil => simp [hbefore] at ht
        | cons hbridge _ =>
          have hsep := hzone.input_of_mem_arcsFrom_withLinks hf hrule hbefore hbridge
          exact absurd hsep (hlater _ List.mem_cons_self)
    · have hreads := hzone.readsOnly hs hfirst hbefore
      obtain ⟨hafter, hseparates⟩ := hzone.before_arc hbefore hbridge
      obtain ⟨houter, hwrites⟩ := hzone.after_arc hafter hlast
      obtain ⟨arcs, harcs, hsame⟩ := ih houter ht hlater
      exact ⟨first :: bridge :: last :: arcs, .alternative hfirst hbefore hbridge hlast harcs,
        hsame.alternative hreads hseparates hwrites _ _⟩

end IsRuleNetwork

/-! ### The relation of a rule -/

/-- Some successful run of the network shows the first string on its input side and the second one
on its output side. -/
def Relates (f : Network) (rule : RuleMarks) (u v : List Label) : Prop :=
  ∃ arcs, f.Succeeds arcs ∧ rule.visible (arcs.map Arc.input) = u ∧
    rule.visible (arcs.map Arc.output) = v

/-- Deleting the separators of a network leaves the runs that take none. -/
theorem relates_pruneArcs_iff {g : Network} (hg : g.WellFormed) {u v : List Label} :
    (g.pruneArcs fun a => a.input == rule.separator).network.Relates rule u v ↔
      ∃ arcs, g.Succeeds arcs ∧ (∀ a ∈ arcs, a.input ≠ rule.separator) ∧
        rule.visible (arcs.map Arc.input) = u ∧ rule.visible (arcs.map Arc.output) = v := by
  obtain ⟨number, hprune⟩ :=
    exists_succeeds_pruneArcs_iff hg fun a => a.input == rule.separator
  have hinput (arcs : List Arc) :
      (arcs.map (Arc.moveTarget number)).map Arc.input = arcs.map Arc.input := by
    rw [List.map_map]
    rfl
  have houtput (arcs : List Arc) :
      (arcs.map (Arc.moveTarget number)).map Arc.output = arcs.map Arc.output := by
    rw [List.map_map]
    rfl
  simp only [Relates, hprune, beq_eq_false_iff_ne]
  constructor
  · rintro ⟨_, ⟨arcs, hsucceeds, hne, rfl⟩, hu, hv⟩
    rw [hinput] at hu
    rw [houtput] at hv
    exact ⟨arcs, hsucceeds, hne, hu, hv⟩
  · rintro ⟨arcs, hsucceeds, hne, hu, hv⟩
    exact ⟨_, ⟨arcs, hsucceeds, hne, rfl⟩, by rw [hinput, hu], by rw [houtput, hv]⟩

/-- Synchronizing a compiled rule succeeds, and the result relates the same strings. -/
theorem relates_synchronize_iff (hw : w.check = .ok ()) (hrule : rule.check w = .ok ())
    (hf : f.WellFormed) (hzone : f.IsRuleNetwork rule w zone) (u v : List Label) :
    (f.synchronize rule w).result = .ok () ∧
      (f.Relates rule u v ↔ (f.synchronize rule w).network.Relates rule u v) := by
  refine ⟨synchronize_result hf rule w, ?_⟩
  rw [synchronize_network hf, relates_pruneArcs_iff (hf.withLinks rule w)]
  constructor
  · rintro ⟨arcs, ⟨start, hstart, t, hrun, hfinal⟩, rfl, rfl⟩
    have hs := hzone.start_outer hstart
    have hrule' := hzone.ruleRun hs (hzone.final_outer hfinal) hrun
    obtain ⟨linked, hlinked, hne, hinput, houtput⟩ := hzone.exists_linked_run hf hw hrule hs hrule'
    refine ⟨linked, ⟨start, ?_, t, hlinked, isFinal_withLinks_iff.2 hfinal⟩, hne, hinput.symm,
      houtput.symm⟩
    rwa [start_withLinks]
  · rintro ⟨linked, ⟨start, hstart, t, hlinked, hfinal⟩, hne, rfl, rfl⟩
    rw [start_withLinks] at hstart
    rw [isFinal_withLinks_iff] at hfinal
    obtain ⟨arcs, harcs, hinput, houtput⟩ := hzone.exists_ruleRun hf hw hrule
      (hzone.start_outer hstart) (hzone.final_outer hfinal) hlinked hne
    exact ⟨arcs, ⟨start, hstart, t, harcs.run, hfinal⟩, hinput, houtput⟩

/-- A rule with a cycle of outer states, in which two first arcs and two last arcs share the states
inside their alternatives. -/
theorem relates_synchronize_cycle :
    let f : Network := ⟨#[⟨Weight.one, [⟨5, 0, Weight.one, 1⟩, ⟨6, 201, Weight.one, 1⟩,
      ⟨100, 100, Weight.one, 0⟩]⟩, ⟨Weight.zero, [⟨200, 200, Weight.one, 2⟩]⟩,
      ⟨Weight.zero, [⟨0, 7, Weight.one, 0⟩, ⟨201, 201, Weight.one, 0⟩]⟩], some 0⟩
    let w : Wildcards := ⟨100, 101⟩
    let rule : RuleMarks := ⟨200, 201⟩
    let zone : StateId → Zone := fun s =>
      if s = 1 then .beforeSeparator else if s = 2 then .afterSeparator else .outer
    w.check = .ok () ∧ rule.check w = .ok () ∧ f.WellFormed ∧ f.IsRuleNetwork rule w zone ∧
      (f.synchronize rule w).result = .ok () ∧
      (f.Relates rule [5, 100, 6] [7, 100] ↔
        (f.synchronize rule w).network.Relates rule [5, 100, 6] [7, 100]) := by
  intro f w rule zone
  have hw : w.check = .ok () := by decide
  have hrule : rule.check w = .ok () := by decide
  have hf : f.WellFormed := isWellFormed_eq_true_iff.1 (by decide)
  have hzone : f.IsRuleNetwork rule w zone := {
    start_outer := by
      intro s hs
      obtain rfl : 0 = s := Option.some.inj hs
      rfl
    final_outer := by
      have h : ∀ s ∈ f.finalStates, zone s = .outer := by decide
      intro s hs
      exact h s (mem_finalStates_iff.2 hs)
    outer_arc := by
      have h : ∀ s < f.size, zone s = .outer → ∀ a ∈ f.arcsFrom s,
          (zone a.target = .outer ∧ a.input ≠ rule.separator) ∨
            (zone a.target = .beforeSeparator ∧ rule.ReadsOnly w a) := by decide
      intro s a hs ha
      exact h s (lt_size_of_mem_arcsFrom ha) hs a ha
    before_arc := by
      have h : ∀ s < f.size, zone s = .beforeSeparator → ∀ a ∈ f.arcsFrom s,
          zone a.target = .afterSeparator ∧ rule.Separates a := by decide
      intro s a hs ha
      exact h s (lt_size_of_mem_arcsFrom ha) hs a ha
    after_arc := by
      have h : ∀ s < f.size, zone s = .afterSeparator → ∀ a ∈ f.arcsFrom s,
          zone a.target = .outer ∧ rule.WritesOnly w a := by decide
      intro s a hs ha
      exact h s (lt_size_of_mem_arcsFrom ha) hs a ha }
  exact ⟨hw, hrule, hf, hzone, relates_synchronize_iff hw hrule hf hzone _ _⟩

end Network

end WildcardNet
