import WildcardNet.Proofs.Trimming
/-!
# Arcs that lead nowhere

An arc can be edited in place without a look at its target, so a target need not be a state. Trimming
a network that has a start looks at every arc: the search from the start meets the arcs that can be
reached, and the lists of predecessors take in all of them. It breaks off if and only if one of them
leads nowhere, and then nothing has been changed. Pruning adds a state before it trims, which gives
the arcs to the first missing state a target, and leads the doomed arcs there; these changes stay
when it breaks off.
-/

namespace WildcardNet

theorem Outcome.andThen_of_error {ε α β : Type} {o : Outcome ε α} {e : ε}
    (h : o.result = .error e) (next : Network → α → Outcome ε β) :
    o.andThen next = ⟨o.network, o.events, .error e⟩ := by
  simp [andThen, h]

namespace Network

variable {f : Network} {doomed : Arc → Bool} {e : NetworkError}

theorem trim_of_useful?_eq_none {start : StateId} (hstart : f.start = some start)
    (hkeep : f.useful? start = none) : f.trim = ⟨f, [], .error .danglingArc⟩ := by
  simp only [trim, hstart, hkeep]

/-- From a start that is a state, the search breaks off at a missing target and at nothing else. -/
theorem useful?_eq_none_iff {start : StateId} (hstart : start < f.size) :
    f.useful? start = none ↔ ∃ s, ∃ a ∈ f.arcsFrom s, f.size ≤ a.target := by
  constructor
  · intro hnone
    by_contra hall
    have harcs : ∀ s, ∀ a ∈ f.arcsFrom s, a.target < f.size := by
      intro s a ha
      exact Nat.lt_of_not_le fun hle => hall ⟨s, a, ha, hle⟩
    rw [useful?_eq_some_iff.2 ⟨hstart, harcs, rfl⟩] at hnone
    cases hnone
  · rintro ⟨s, a, ha, hle⟩
    rw [Option.eq_none_iff_forall_ne_some]
    intro keep hkeep
    have hlt := (useful?_eq_some_iff.1 hkeep).2.1 s a ha
    exact Nat.not_lt.2 hle hlt

theorem trim_result_eq_error_iff (hstart : ∀ s ∈ f.start, s < f.size) :
    f.trim.result = .error e ↔
      e = .danglingArc ∧ f.start.isSome ∧ ∃ s, ∃ a ∈ f.arcsFrom s, f.size ≤ a.target := by
  cases hs : f.start with
  | none => simp [trim, hs]
  | some start =>
    rw [← useful?_eq_none_iff (hstart start hs)]
    cases hkeep : f.useful? start with
    | none => simp [trim_of_useful?_eq_none hs hkeep, eq_comm]
    | some keep => simp [trim_result_of_useful? hs hkeep]

theorem trim_network_of_error (h : f.trim.result = .error e) : f.trim.network = f := by
  cases hs : f.start with
  | none => simp [trim, hs] at h
  | some start =>
    cases hkeep : f.useful? start with
    | none => rw [trim_of_useful?_eq_none hs hkeep]
    | some keep =>
      rw [trim_result_of_useful? hs hkeep] at h
      cases h

/-! ### Pruning -/

theorem size_sinkArcs (f : Network) (doomed : Arc → Bool) :
    (f.sinkArcs doomed).size = f.size + 1 := by
  simp [sinkArcs]

/-- With the new state there, only a spared arc can lead nowhere, and it has to lead further. -/
theorem exists_dangling_sinkArcs_iff :
    (∃ s, ∃ a ∈ (f.sinkArcs doomed).arcsFrom s, (f.sinkArcs doomed).size ≤ a.target) ↔
      ∃ s, ∃ a ∈ f.arcsFrom s, doomed a = false ∧ f.size < a.target := by
  simp only [arcsFrom_sinkArcs, size_sinkArcs, List.mem_map]
  constructor
  · rintro ⟨s, b, ⟨a, ha, rfl⟩, hle⟩
    cases hdoomed : doomed a with
    | true =>
      simp only [hdoomed, ↓reduceIte] at hle
      omega
    | false =>
      simp only [hdoomed, Bool.false_eq_true, ↓reduceIte] at hle
      exact ⟨s, a, ha, hdoomed, hle⟩
  · rintro ⟨s, a, ha, hdoomed, hlt⟩
    exact ⟨s, a, ⟨a, ha, by simp [hdoomed]⟩, hlt⟩

theorem pruneArcs_result_eq_error_iff_trim :
    (f.pruneArcs doomed).result = .error e ↔ (f.sinkArcs doomed).trim.result = .error e := by
  rw [pruneArcs]
  cases h : (f.sinkArcs doomed).trim.result with
  | ok u => simp [Outcome.andThen_result_of_ok h]
  | error e' => simp [Outcome.andThen_of_error h]

theorem pruneArcs_network_of_error (h : (f.pruneArcs doomed).result = .error e) :
    (f.pruneArcs doomed).network = f.sinkArcs doomed := by
  have htrim := pruneArcs_result_eq_error_iff_trim.1 h
  rw [pruneArcs, Outcome.andThen_of_error htrim, trim_network_of_error htrim]

/-- Let the start, if there is one, be a state, and let arcs lead anywhere. Trimming breaks off if
and only if there is a start and some arc leads to no state, and leaves the network as it was.
Pruning breaks off if and only if there is a start and some spared arc leads past the state that is
added, and leaves the network with that state and with the doomed arcs led there. -/
theorem trim_and_pruneArcs_break_off_iff (hstart : ∀ s ∈ f.start, s < f.size)
    (doomed : Arc → Bool) :
    (∀ e, f.trim.result = .error e ↔
      e = .danglingArc ∧ f.start.isSome ∧ ∃ s, ∃ a ∈ f.arcsFrom s, f.size ≤ a.target) ∧
    (∀ e, f.trim.result = .error e → f.trim.network = f) ∧
    (∀ e, (f.pruneArcs doomed).result = .error e ↔
      e = .danglingArc ∧ f.start.isSome ∧
        ∃ s, ∃ a ∈ f.arcsFrom s, doomed a = false ∧ f.size < a.target) ∧
    ∀ e, (f.pruneArcs doomed).result = .error e → (f.pruneArcs doomed).network =
      { start := f.start
        states := (f.states.map fun st => { st with
          arcs := st.arcs.map fun a => if doomed a then { a with target := f.size } else a }).push
            ⟨Weight.zero, []⟩ } := by
  refine ⟨fun e => trim_result_eq_error_iff hstart, fun e => trim_network_of_error, ?_, ?_⟩
  · intro e
    have hsink : ∀ s ∈ (f.sinkArcs doomed).start, s < (f.sinkArcs doomed).size := by
      intro s hs
      rw [size_sinkArcs]
      exact Nat.lt_succ_of_lt (hstart s hs)
    rw [pruneArcs_result_eq_error_iff_trim, trim_result_eq_error_iff hsink,
      exists_dangling_sinkArcs_iff]
    rfl
  · intro e he
    rw [pruneArcs_network_of_error he]
    rfl

/-- The arcs that lead nowhere leave a state that cannot be reached. One of them leads to the state
that pruning adds, or one further, and the other is doomed. -/
theorem trim_and_pruneArcs_break_off_unreachable :
    let f (target : StateId) : Network := ⟨#[
      ⟨Weight.zero, [⟨5, 5, Weight.one, 1⟩]⟩,
      ⟨Weight.one, []⟩,
      ⟨Weight.zero, [⟨9, 9, Weight.one, 7⟩, ⟨6, 6, Weight.one, target⟩]⟩], some 0⟩
    let doomed (a : Arc) : Bool := a.input == 9
    (∀ s ∈ (f 3).start, s < (f 3).size) ∧ (∀ s ∈ (f 4).start, s < (f 4).size) ∧
      (f 3).trim.result = .error .danglingArc ∧ (f 3).trim.network = f 3 ∧
      (∀ e, ((f 3).pruneArcs doomed).result ≠ .error e) ∧
      ((f 4).pruneArcs doomed).result = .error .danglingArc ∧
      ((f 4).pruneArcs doomed).network = ⟨#[
        ⟨Weight.zero, [⟨5, 5, Weight.one, 1⟩]⟩,
        ⟨Weight.one, []⟩,
        ⟨Weight.zero, [⟨9, 9, Weight.one, 3⟩, ⟨6, 6, Weight.one, 4⟩]⟩,
        ⟨Weight.zero, []⟩], some 0⟩ := by
  intro f doomed
  have hstart : ∀ target, ∀ s ∈ (f target).start, s < (f target).size := by
    intro target s hs
    cases hs
    exact Nat.zero_lt_succ 2
  obtain ⟨htrim, hsame, hprune, -⟩ := trim_and_pruneArcs_break_off_iff (hstart 3) doomed
  obtain ⟨-, -, hprune', hleft⟩ := trim_and_pruneArcs_break_off_iff (hstart 4) doomed
  have hbroken := (htrim .danglingArc).2 ⟨rfl, rfl, 2, ⟨6, 6, Weight.one, 3⟩, by decide, by decide⟩
  have hbroken' := (hprune' .danglingArc).2
    ⟨rfl, rfl, 2, ⟨6, 6, Weight.one, 4⟩, by decide, by decide, by decide⟩
  refine ⟨hstart 3, hstart 4, hbroken, hsame _ hbroken, ?_, hbroken',
    (hleft _ hbroken').trans (by decide +kernel)⟩
  intro e he
  have hnear : (f 3).allArcs (fun a => doomed a || a.target ≤ 3) = true := by decide
  obtain ⟨-, -, s, a, ha, hspared, hlt⟩ := (hprune e).1 he
  have hle : a.target ≤ 3 := by
    simpa [hspared] using forall_arc_iff.1 (allArcs_eq_true_iff.1 hnear) s a ha
  exact Nat.not_lt.2 hle hlt

end Network

end WildcardNet
