import WildcardNet.Proofs.Joining
import WildcardNet.Proofs.Stability
/-!
# Synchronized networks

Synchronizing leaves no arc that reads the separator, be it an old one or a link, and no state that
is off every successful run. A second synchronization finds no separator to link across. It sorts the
arcs, adds a state for doomed arcs to which no arc is led, and trims that state away again without
moving another one. Only the order of arcs can change, and from the second time on not even that.
-/

namespace WildcardNet

namespace Network

/-! ### Sorting twice -/

theorem arcLe_trans (a b c : Arc) (hab : arcLe a b = true) (hbc : arcLe b c = true) :
    arcLe a c = true := by
  simp only [arcLe, Bool.or_eq_true, Bool.and_eq_true, beq_iff_eq, decide_eq_true_iff,
    UInt32.lt_iff_toNat_lt, UInt32.le_iff_toNat_le, ← UInt32.toNat_inj] at *
  omega

theorem arcLe_total (a b : Arc) : (arcLe a b || arcLe b a) = true := by
  simp only [arcLe, Bool.or_eq_true, Bool.and_eq_true, beq_iff_eq, decide_eq_true_iff,
    UInt32.lt_iff_toNat_lt, UInt32.le_iff_toNat_le, ← UInt32.toNat_inj]
  omega

theorem sortArcs_sortArcs (f : Network) : f.sortArcs.sortArcs = f.sortArcs := by
  apply eq_of_final?_of_arcsFrom (start_sortArcs _) (size_sortArcs _)
  · exact fun s _ => final?_sortArcs _ s
  · intro s
    rw [arcsFrom_sortArcs, arcsFrom_sortArcs]
    exact List.mergeSort_of_pairwise (List.pairwise_mergeSort arcLe_trans arcLe_total _)

/-! ### Networks without separators -/

variable {f : Network} {rule : RuleMarks}

/-- No arc reads the separator, and every state lies on a run from the start to a final state. -/
structure Synchronized (f : Network) (rule : RuleMarks) : Prop where
  wellFormed : f.WellFormed
  input_ne : ∀ s, ∀ a ∈ f.arcsFrom s, a.input ≠ rule.separator
  useful : ∀ s < f.size, f.Useful s

theorem synchronized_synchronize (hf : f.WellFormed) (rule : RuleMarks) (w : Wildcards) :
    (f.synchronize rule w).network.Synchronized rule := by
  have hlinks := hf.withLinks rule w
  have hdelete := hlinks.deleteArcs fun a => a.input == rule.separator
  rw [synchronize_network hf, pruneArcs_network_eq_trim hlinks]
  refine ⟨hdelete.trim, ?_, useful_trim hdelete⟩
  -- Links that read the separator are in the network by now, and go with the old separators.
  apply forall_pair_trim (p := fun i _ => i ≠ rule.separator) hdelete
  intro s a ha
  rw [arcsFrom_deleteArcs] at ha
  simpa using (List.mem_filter.1 ha).2

namespace Synchronized

theorem sortArcs (h : f.Synchronized rule) : f.sortArcs.Synchronized rule := by
  have hsame := sortArcs_sameUpToOrder f
  refine ⟨h.wellFormed.sortArcs, ?_, ?_⟩
  · intro s a ha
    exact h.input_ne s a ((hsame.arcs_related s).mem_iff.1 ha)
  · intro s hs
    have huseful : f.sortArcs.Useful s ↔ f.Useful s := by
      apply useful_congr hsame.start_eq fun _ => hsame.isFinal_iff
      exact fun s t => ((hsame.arcs_related s).map Arc.target).mem_iff
    exact huseful.2 (h.useful s (size_sortArcs f ▸ hs))

theorem allLinks_eq_nil (h : f.Synchronized rule) (w : Wildcards) : rule.allLinks w f = [] := by
  rw [List.eq_nil_iff_forall_not_mem]
  rintro ⟨s, b⟩ hlink
  obtain ⟨first, -, -, bridge, hbridge, hseparator, -⟩ := RuleMarks.mem_allLinks_iff.1 hlink
  exact h.input_ne first.target bridge hbridge hseparator

/-- Synchronizing a synchronized network sorts its arcs. -/
theorem synchronize_network (h : f.Synchronized rule) (w : Wildcards) :
    (f.synchronize rule w).network = f.sortArcs := by
  have hsorted := h.sortArcs
  have hspared : ∀ s, ∀ a ∈ f.sortArcs.arcsFrom s, (a.input == rule.separator) = false := by
    intro s a ha
    simpa using hsorted.input_ne s a ha
  rw [Network.synchronize_network h.wellFormed, withLinks, hsorted.allLinks_eq_nil, appendArcs_nil,
    pruneArcs_network_eq_trim hsorted.wellFormed, deleteArcs_eq_self hspared]
  exact trim_network_eq_self hsorted.wellFormed hsorted.useful

end Synchronized

/-! ### Synchronizing again and again -/

/-- Synchronizes so many times, unless one of the times breaks off. -/
def synchronizeTimes (rule : RuleMarks) (w : Wildcards) :
    Nat → Network → Outcome NetworkError Unit
  | 0, f => ⟨f, [], .ok ()⟩
  | n + 1, f => (f.synchronize rule w).andThen fun g _ => synchronizeTimes rule w n g

theorem synchronizeTimes_of_fixed {w : Wildcards} (hresult : (f.synchronize rule w).result = .ok ())
    (hnetwork : (f.synchronize rule w).network = f) (n : Nat) :
    (synchronizeTimes rule w n f).result = .ok () ∧ (synchronizeTimes rule w n f).network = f := by
  induction n with
  | zero => exact ⟨rfl, rfl⟩
  | succ n ih =>
    rw [synchronizeTimes, Outcome.andThen_result_of_ok hresult,
      Outcome.andThen_network_of_ok hresult, hnetwork]
    exact ih

/-- Synchronizing a well-formed network succeeds and leaves a network in which no arc reads the
separator and every state is useful. Synchronizing that once more succeeds and sorts its arcs, and
does nothing from then on, however often it is done. -/
theorem synchronize_synchronize_network (hf : f.WellFormed) (rule : RuleMarks) (w : Wildcards) :
    (f.synchronize rule w).result = .ok () ∧
      let g := (f.synchronize rule w).network
      (∀ s, ∀ a ∈ g.arcsFrom s, a.input ≠ rule.separator) ∧ (∀ s < g.size, g.Useful s) ∧
        (g.synchronize rule w).result = .ok () ∧ (g.synchronize rule w).network = g.sortArcs ∧
          ∀ n, (synchronizeTimes rule w n g.sortArcs).result = .ok () ∧
            (synchronizeTimes rule w n g.sortArcs).network = g.sortArcs := by
  have hg := synchronized_synchronize hf rule w
  refine ⟨synchronize_result hf rule w, hg.input_ne, hg.useful,
    synchronize_result hg.wellFormed rule w, hg.synchronize_network w, ?_⟩
  apply synchronizeTimes_of_fixed (synchronize_result hg.sortArcs.wellFormed rule w)
  rw [hg.sortArcs.synchronize_network, sortArcs_sortArcs]

/-- A separator on a loop is the first arc of links, which read the separator themselves. The links
that are left stand behind the old arcs until the second time. -/
theorem synchronize_synchronize_network_loops :
    let f : Network := ⟨#[⟨Weight.zero, [⟨5, 201, Weight.one, 0⟩, ⟨100, 100, Weight.one, 1⟩,
      ⟨200, 201, Weight.one, 0⟩]⟩, ⟨Weight.one, []⟩], some 0⟩
    let g : Network := ⟨#[⟨Weight.zero, [⟨5, 201, Weight.one, 0⟩, ⟨100, 100, Weight.one, 1⟩,
      ⟨5, 0, Weight.one, 0⟩, ⟨5, 101, Weight.one, 1⟩, ⟨5, 0, Weight.one, 0⟩]⟩,
      ⟨Weight.one, []⟩], some 0⟩
    let sorted : Network := ⟨#[⟨Weight.zero, [⟨5, 0, Weight.one, 0⟩, ⟨5, 0, Weight.one, 0⟩,
      ⟨5, 101, Weight.one, 1⟩, ⟨5, 201, Weight.one, 0⟩, ⟨100, 100, Weight.one, 1⟩]⟩,
      ⟨Weight.one, []⟩], some 0⟩
    let rule : RuleMarks := ⟨200, 201⟩
    let w : Wildcards := ⟨100, 101⟩
    f.WellFormed ∧ (f.synchronize rule w).network = g ∧ (∀ s < g.size, g.Useful s) ∧
      (g.synchronize rule w).network = sorted ∧
      ∀ n, (synchronizeTimes rule w n sorted).network = sorted := by
  intro f g sorted rule w
  have hf : f.WellFormed := isWellFormed_eq_true_iff.1 (by decide)
  have hfirst : (f.synchronize rule w).network = g := by
    have hsame : f.sortArcs = f := by simp [f, Network.sortArcs, List.mergeSort, arcLe]
    rw [synchronize_network hf, withLinks, hsame]
    decide +kernel
  have hsorted : g.sortArcs = sorted := by
    simp [g, sorted, Network.sortArcs, List.mergeSort, arcLe]
  obtain ⟨-, -, huseful, -, hsecond, hlater⟩ := synchronize_synchronize_network hf rule w
  simp only [hfirst, hsorted] at huseful hsecond hlater
  exact ⟨hf, hfirst, huseful, hsecond, fun n => (hlater n).2⟩

end Network

end WildcardNet
