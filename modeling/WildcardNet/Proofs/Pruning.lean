import WildcardNet.Proofs.UsefulPart
/-!
# Pruning by runs

Pruning leads the doomed arcs to a new state and trims. The new state is not final, so it is never
among the states that are left. The successful runs that are left are the successful runs without a
doomed arc, each as often as before, with its states renumbered and all its weights kept.
-/

namespace WildcardNet.Network

variable {f g : Network} {s t : StateId} {number : StateId → StateId}
  {reads : Arc → Label × Label → Prop} {string : List (Label × Label)}

/-! ### Runs in the useful part -/

theorem ReadingRun.exists_reaches (r : ReadingRun f reads s string) :
    ∃ t, f.Reaches s t ∧ f.IsFinal t := by
  induction r with
  | @stop s weight stored final =>
    exact ⟨s, Reaches.refl f s, isFinal_iff.2 ⟨weight, stored, final⟩⟩
  | @step s pair string position _ _ ih =>
    obtain ⟨t, hreach, ht⟩ := ih
    have hone : f.Reaches s ((f.arcsFrom s).get position).target :=
      ⟨_, .cons (List.get_mem _ position) (.nil _)⟩
    exact ⟨t, hone.trans hreach, ht⟩

theorem Useful.target (h : f.Useful s) {a : Arc} (ha : a ∈ f.arcsFrom s)
    (r : ReadingRun f reads a.target string) : f.Useful a.target := by
  obtain ⟨⟨start, hstart, hreach⟩, -⟩ := h
  have hone : f.Reaches s a.target := ⟨[a], .cons ha (.nil _)⟩
  exact ⟨⟨start, hstart, hreach.trans hone⟩, r.exists_reaches⟩

namespace IsPart

/-- An arc between useful states is taken in the part as often as before. -/
theorem nonempty_stepTo_equiv_part (h : f.IsPart g f.Useful number)
    (hreads : ∀ a pair, reads (a.moveTarget number) pair ↔ reads a pair) (hs : f.Useful s)
    (ht : f.Useful t) (pair : Label × Label) (weight : Weight) :
    Nonempty (StepTo g reads (number s) pair (weight, number t) ≃
      StepTo f reads s pair (weight, t)) := by
  classical
  apply nonempty_stepTo_equiv
  rw [h.arcsFrom_eq s hs, List.countP_map, List.countP_filter]
  apply List.countP_congr
  intro a _
  have htarget : f.Useful a.target → (number a.target = number t ↔ a.target = t) :=
    fun ha => h.numbers.bijOn.injOn.eq_iff ha ht
  simp only [Function.comp_apply, Bool.and_eq_true, decide_eq_true_iff, hreads, Prod.mk.injEq]
  constructor
  · intro ⟨⟨hread, hweight, hnumber⟩, ha⟩
    exact ⟨hread, hweight, (htarget ha).1 hnumber⟩
  · intro ⟨hread, hweight, heq⟩
    have ha : f.Useful a.target := heq ▸ ht
    exact ⟨⟨hread, hweight, (htarget ha).2 heq⟩, ha⟩

theorem exists_equiv_runs (h : f.IsPart g f.Useful number)
    (hreads : ∀ a pair, reads (a.moveTarget number) pair ↔ reads a pair)
    (string : List (Label × Label)) (hs : f.Useful s) :
    ∃ e : ReadingRun g reads (number s) string ≃ ReadingRun f reads s string,
      ∀ r, ReadingRun.SameTraceUpTo number r (e r) := by
  apply ReadingRun.exists_equiv_renumbered number f.Useful h.numbers.bijOn.injOn h.final?_eq
    (fun s hs a ha _ r => hs.target ha r) _
    (fun s t hs ht => h.nonempty_stepTo_equiv_part hreads hs ht) string s hs
  intro s hs b hb
  rw [h.arcsFrom_eq s hs] at hb
  obtain ⟨a, ha, rfl⟩ := List.mem_map.1 hb
  obtain ⟨-, huseful⟩ := List.mem_filter.1 ha
  exact ⟨a.target, of_decide_eq_true huseful, rfl⟩

end IsPart

/-- With a start, successful runs are the runs from it. -/
def SuccessfulReading.equivRuns {start : StateId} (hstart : f.start = some start) :
    SuccessfulReading f reads string ≃ ReadingRun f reads start string where
  toFun r := Option.some.inj (r.isStart.symm.trans hstart) ▸ r.run
  invFun run := ⟨start, hstart, run⟩
  left_inv r := by
    obtain ⟨start', hstart', run⟩ := r
    obtain rfl : start' = start := Option.some.inj (hstart'.symm.trans hstart)
    rfl
  right_inv _ := rfl

theorem IsPart.exists_equiv_readings (h : f.IsPart g f.Useful number)
    (hreads : ∀ a pair, reads (a.moveTarget number) pair ↔ reads a pair)
    (string : List (Label × Label)) :
    ∃ e : SuccessfulReading g reads string ≃ SuccessfulReading f reads string,
      ∀ r, ReadingRun.SameTraceUpTo number r.run (e r).run := by
  by_cases hsome : ∃ start ∈ f.start, f.Useful start
  · obtain ⟨start, hstart, huseful⟩ := hsome
    have hstart' : g.start = some (number start) := by
      rw [h.start_eq, Option.mem_def.1 hstart]
      simp [huseful]
    obtain ⟨e, he⟩ := h.exists_equiv_runs hreads string huseful
    refine ⟨(SuccessfulReading.equivRuns hstart').trans
      (e.trans (SuccessfulReading.equivRuns hstart).symm), ?_⟩
    intro r
    obtain ⟨run, rfl⟩ := (SuccessfulReading.equivRuns hstart').symm.surjective r
    exact he run
  · -- Neither side has a successful run.
    have hf : IsEmpty (SuccessfulReading f reads string) :=
      ⟨fun r => hsome ⟨r.start, r.isStart, (useful_start_iff r.isStart).2 r.run.exists_reaches⟩⟩
    have hg : IsEmpty (SuccessfulReading g reads string) := by
      refine ⟨fun r => ?_⟩
      have hstart := r.isStart
      rw [h.start_eq] at hstart
      obtain ⟨start, hmem, -⟩ := Option.map_eq_some_iff.1 hstart
      obtain ⟨hstart, huseful⟩ := Option.filter_eq_some_iff.1 hmem
      exact hsome ⟨start, hstart, of_decide_eq_true huseful⟩
    exact ⟨Equiv.equivOfIsEmpty _ _, fun r => hg.elim r⟩

/-! ### Runs without doomed arcs -/

variable {doomed : Arc → Bool}

theorem exists_equiv_deleteArcs (f : Network) (doomed : Arc → Bool)
    (string : List (Label × Label)) :
    ∃ e : SuccessfulReading (f.deleteArcs doomed) reads string ≃
        SuccessfulReading f (fun a pair => doomed a = false ∧ reads a pair) string,
      ∀ r, (e r).run.states = r.run.states ∧ (e r).run.weights = r.run.weights ∧
        (e r).run.finalWeight = r.run.finalWeight := by
  classical
  apply exists_successfulReading_equiv (start_deleteArcs f doomed) (final?_deleteArcs f doomed)
  intro s pair landing
  apply nonempty_stepTo_equiv
  rw [arcsFrom_deleteArcs, List.countP_filter]
  apply List.countP_congr
  intro a _
  simp only [Bool.and_eq_true, decide_eq_true_iff, Bool.not_eq_true']
  rw [and_comm, and_assoc]

/-- A part of the spared arcs holds no doomed one under its new target. -/
theorem IsPart.moveTarget_notMem {kept : StateId → Prop} [DecidablePred kept]
    (h : (f.deleteArcs doomed).IsPart g kept number) (hs : kept s) {a : Arc}
    (htarget : kept a.target) (hdoomed : doomed a = true) :
    a.moveTarget number ∉ g.arcsFrom (number s) := by
  rw [h.arcsFrom_eq s hs, arcsFrom_deleteArcs]
  intro hmem
  obtain ⟨b, hb, heq⟩ := List.mem_map.1 hmem
  obtain ⟨hspared, htarget'⟩ := List.mem_filter.1 hb
  obtain ⟨-, hspared⟩ := List.mem_filter.1 hspared
  have hab : b.target = a.target :=
    h.numbers.bijOn.injOn (of_decide_eq_true htarget') htarget (congrArg Arc.target heq)
  have hsame : b = a := by
    cases a
    cases b
    simp_all [Arc.moveTarget]
  rw [hsame, hdoomed] at hspared
  cases hspared

/-- What is left of a network without its doomed arcs: the states that are useful without them, the
spared arcs between these, and the successful runs that take no doomed arc. -/
structure IsPruned (f g : Network) (doomed : Arc → Bool) (number : StateId → StateId) : Prop where
  numbers : NumbersInOrder number (f.deleteArcs doomed).Useful g.size
  lt_size : ∀ s, (f.deleteArcs doomed).Useful s → s < f.size
  useful : ∀ k < g.size, g.Useful k
  final?_eq : ∀ s, (f.deleteArcs doomed).Useful s → g.final? (number s) = f.final? s
  arcsFrom_eq : ∀ s, (f.deleteArcs doomed).Useful s → g.arcsFrom (number s) =
    ((f.arcsFrom s).filter fun a => (f.deleteArcs doomed).Useful a.target && !doomed a).map
      (Arc.moveTarget number)
  moveTarget_notMem : ∀ s, (f.deleteArcs doomed).Useful s → ∀ a ∈ f.arcsFrom s,
    (f.deleteArcs doomed).Useful a.target → doomed a = true →
      a.moveTarget number ∉ g.arcsFrom (number s)
  runs : ∀ string, ∃ e : SuccessfulReading g Arc.ReadsLiterally string ≃
      SuccessfulReading f (fun a pair => doomed a = false ∧ a.ReadsLiterally pair) string,
    ∀ r, r.run.states = (e r).run.states.map number ∧ (e r).run.weights = r.run.weights ∧
      (e r).run.finalWeight = r.run.finalWeight

theorem IsPart.isPruned (h : (f.deleteArcs doomed).IsPart g (f.deleteArcs doomed).Useful number)
    (huseful : ∀ k < g.size, g.Useful k) : f.IsPruned g doomed number where
  numbers := h.numbers
  lt_size s hs := by
    have hlt := hs.lt_size
    rwa [size_deleteArcs] at hlt
  useful := huseful
  final?_eq s hs := by rw [h.final?_eq s hs, final?_deleteArcs]
  arcsFrom_eq s hs := by rw [h.arcsFrom_eq s hs, arcsFrom_deleteArcs, List.filter_filter]
  moveTarget_notMem s hs a _ := h.moveTarget_notMem hs
  runs string := by
    have hreads : ∀ (a : Arc) pair,
        (a.moveTarget number).ReadsLiterally pair ↔ a.ReadsLiterally pair := fun _ _ => Iff.rfl
    obtain ⟨e, he⟩ := h.exists_equiv_readings hreads string
    obtain ⟨e', he'⟩ := exists_equiv_deleteArcs f doomed string
    refine ⟨e.trans e', fun r => ?_⟩
    obtain ⟨hstates, hweights, hfinal⟩ := he r
    obtain ⟨hstates', hweights', hfinal'⟩ := he' (e r)
    exact ⟨hstates.trans (hstates' ▸ rfl), hweights'.trans hweights, hfinal'.trans hfinal⟩

/-- Pruning a well-formed network deletes the doomed arcs with the runs that take one, and gives
their number. Stripping, which prunes wildcard arcs, leaves no wildcard. -/
theorem exists_isPruned_pruneArcs (hf : f.WellFormed) (doomed : Arc → Bool) :
    (f.pruneArcs doomed).result = .ok (f.countArcs doomed) ∧
      (∃ number, f.IsPruned (f.pruneArcs doomed).network doomed number) ∧
      ∀ w, (f.strip w).result = .ok () ∧ (f.strip w).network.containsWildcard w = false := by
  refine ⟨pruneArcs_result hf doomed, ?_, ?_⟩
  · have hspared := hf.deleteArcs doomed
    rw [pruneArcs_network_eq_trim hf]
    obtain ⟨number, hpart⟩ := exists_isPart_trim hspared
    exact ⟨number, hpart.isPruned (useful_trim hspared)⟩
  · intro w
    exact ⟨strip_result hf w, containsWildcard_eq_false_iff.2 (settled_strip hf w).plain⟩

/-- Doomed arcs stand twice at one state, on a cycle, before a final state that only they lead to,
and at a state that cannot be reached. -/
theorem exists_isPruned_pruneArcs_cycle :
    let w : Wildcards := ⟨100, 101⟩
    let f : Network := ⟨#[
      ⟨Weight.zero, [⟨5, 5, Weight.one, 3⟩, ⟨100, 100, Weight.one, 3⟩, ⟨100, 100, Weight.one, 3⟩,
        ⟨5, 5, Weight.one, 3⟩]⟩,
      ⟨Weight.one, [⟨101, 7, Weight.one, 0⟩]⟩,
      ⟨Weight.one, []⟩,
      ⟨Weight.one, [⟨6, 6, Weight.one, 0⟩, ⟨101, 6, Weight.one, 0⟩, ⟨8, 101, Weight.one, 2⟩]⟩],
      some 0⟩
    f.WellFormed ∧ (f.pruneArcs w.onArc).result = .ok 5 ∧
      (∃ number, f.IsPruned (f.pruneArcs w.onArc).network w.onArc number) ∧
      (f.strip w).network.containsWildcard w = false ∧
      (f.pruneArcs w.onArc).network = ⟨#[
        ⟨Weight.zero, [⟨5, 5, Weight.one, 1⟩, ⟨5, 5, Weight.one, 1⟩]⟩,
        ⟨Weight.one, [⟨6, 6, Weight.one, 0⟩]⟩], some 0⟩ := by
  intro w f
  have hf : f.WellFormed := isWellFormed_eq_true_iff.1 (by decide)
  obtain ⟨hcount, hpruned, hstrip⟩ := exists_isPruned_pruneArcs hf w.onArc
  exact ⟨hf, hcount, hpruned, (hstrip w).2, by decide +kernel⟩

end WildcardNet.Network
