import WildcardNet.Proofs.Passes
import WildcardNet.Proofs.Roles
/-!
# Clean networks

A network is clean when the identity wildcard is only ever paired with itself. Demoting is the only
pass that can break this. Restoring, projecting and blanking make every network clean, and the other
passes keep a clean network clean, so it can be told from the names of the passes in a sequence
whether the outcome is clean.
-/

namespace WildcardNet

/-- No arc of the network pairs the identity wildcard with another label. -/
def Network.Clean (f : Network) (w : Wildcards) : Prop :=
  ∀ s, ∀ a ∈ f.arcsFrom s, w.isDisallowedPair a.input a.output = false

theorem Network.clean_iff {f : Network} {w : Wildcards} :
    f.Clean w ↔ f.disallowedPairs w = [] := by
  rw [disallowedPairs_eq_nil_iff]
  exact forall_arc_iff.symm

/-! ### Arcs -/

namespace Wildcards

variable {w : Wildcards} {a b : Arc} {i o : Label}

theorem isDisallowedPair_self (w : Wildcards) (i : Label) : w.isDisallowedPair i i = false :=
  isDisallowedPair_eq_false_iff.2 Iff.rfl

theorem isDisallowedPair_of_ne (hi : i ≠ w.identity) (ho : o ≠ w.identity) :
    w.isDisallowedPair i o = false :=
  isDisallowedPair_eq_false_iff.2 (iff_of_false hi ho)

theorem demoteLabel_ne_identity (hw : w.identity ≠ w.other) (i : Label) :
    w.demoteLabel i ≠ w.identity := by
  rw [demoteLabel]
  split
  · exact hw.symm
  · assumption

/-- A repaired arc and a twin never pair the identity wildcard with another label. -/
theorem allowed_of_mem_restoredArcs (hw : w.identity ≠ w.other) (hb : b ∈ w.restoredArcs a) :
    w.isDisallowedPair b.input b.output = false := by
  rcases mem_restoredArcs_iff.1 hb with rfl | ⟨-, rfl⟩
  · by_cases hi : a.input = w.identity <;> by_cases ho : a.output = w.identity
    · simpa [repairArc, hi, ho] using w.isDisallowedPair_self w.identity
    · simpa [repairArc, hi, ho] using isDisallowedPair_of_ne hw.symm ho
    · simpa [repairArc, hi, ho] using isDisallowedPair_of_ne hi hw.symm
    · simpa [repairArc, hi, ho] using isDisallowedPair_of_ne hi ho
  · exact w.isDisallowedPair_self w.identity

theorem allowed_blankArc (hid : w.identity ≠ Label.epsilon) (hw : w.identity ≠ w.other)
    (side : Side) (a : Arc) :
    w.isDisallowedPair (w.blankArc side a).input (w.blankArc side a).output = false := by
  cases side with
  | input => exact isDisallowedPair_of_ne hid.symm (demoteLabel_ne_identity hw a.output)
  | output => exact isDisallowedPair_of_ne (demoteLabel_ne_identity hw a.input) hid.symm

theorem allowed_unbind (hw : w.identity ≠ w.other) (i o : Label) :
    w.isDisallowedPair (w.unbind i o).1 (w.unbind i o).2 = false := by
  rw [unbind]
  split
  · next h => exact isDisallowedPair_of_ne hw.symm h.2
  · split
    · next h => exact isDisallowedPair_of_ne h.2 hw.symm
    · next hi ho =>
      apply isDisallowedPair_eq_false_iff.2
      constructor
      · intro h
        exact Decidable.byContradiction fun hne => hi ⟨h, hne⟩
      · intro h
        exact Decidable.byContradiction fun hne => ho ⟨h, hne⟩

end Wildcards

/-! ### Passes -/

namespace Network

variable {f : Network} {w : Wildcards}

theorem clean_mapArcs {g : Arc → Arc}
    (hg : ∀ a, w.isDisallowedPair (g a).input (g a).output = false) : (f.mapArcs g).Clean w := by
  intro s b hb
  rw [arcsFrom_mapArcs] at hb
  obtain ⟨a, -, rfl⟩ := List.mem_map.1 hb
  exact hg a

theorem clean_restore (hf : f.WellFormed) (hw : w.identity ≠ w.other) :
    (f.restore w).network.Clean w := by
  intro s b hb
  obtain ⟨a, -, hb⟩ := (mem_arcsFrom_restore_iff hf).1 hb
  exact Wildcards.allowed_of_mem_restoredArcs hw hb

theorem Clean.pruneArcs (h : f.Clean w) (hf : f.WellFormed) (doomed : Arc → Bool) :
    (f.pruneArcs doomed).network.Clean w :=
  forall_pair_pruneArcs (p := fun i o => w.isDisallowedPair i o = false) hf doomed h

theorem Clean.strip (h : f.Clean w) (hf : f.WellFormed) : (f.strip w).network.Clean w := by
  rw [strip_network hf]
  exact h.pruneArcs hf w.onArc

theorem Clean.expand (h : f.Clean w) (hf : f.WellFormed) (hw : w.identity ≠ w.other)
    {alphabet : List Label} (hconcrete : ∀ c ∈ alphabet, w.isConcrete c = true) :
    (f.expand w alphabet).network.Clean w :=
  fun _ _ hb => allowed_expand hf hw hconcrete h hb

theorem Clean.close (h : f.Clean w) (hf : f.WellFormed) (hw : w.identity ≠ w.other)
    {alphabet : List Label} (hconcrete : ∀ c ∈ alphabet, w.isConcrete c = true) :
    (f.close w alphabet).network.Clean w := by
  rw [close_network hf]
  exact (h.expand hf hw hconcrete).strip (hf.expand w alphabet)

theorem Clean.synchronize (h : f.Clean w) (hf : f.WellFormed) (hw : w.identity ≠ w.other)
    (rule : RuleMarks) : (f.synchronize rule w).network.Clean w := by
  rw [synchronize_network hf]
  apply Clean.pruneArcs _ (hf.withLinks rule w)
  intro s b hb
  rcases (mem_arcsFrom_withLinks_iff hf).1 hb with hb | ⟨first, -, -, bridge, -, -, last, -, rfl⟩
  · exact h s b hb
  · exact Wildcards.allowed_unbind hw _ _

end Network

namespace Pass

/-- The pass leaves no identity wildcard paired with another label, whatever it is given. -/
def cleanses : Pass → Bool
  | .restore | .project _ | .blank _ => true
  | _ => false

def isDemote : Pass → Bool
  | .demote _ => true
  | _ => false

variable {c : Settings} {f g : Network} {p : Pass} {ps : List Pass}

theorem Yields.clean_of_cleanses (h : p.Yields c f g) (hc : c.wildcards.check = .ok ())
    (hf : f.WellFormed) (hp : p.cleanses = true) : g.Clean c.wildcards := by
  obtain ⟨hid, -, hw⟩ := Wildcards.check_eq_ok_iff.1 hc
  cases h with
  | restore => exact Network.clean_restore hf hw
  | project side => exact Network.clean_mapArcs fun _ => c.wildcards.isDisallowedPair_self _
  | blank side => exact Network.clean_mapArcs (Wildcards.allowed_blankArc hid hw side)
  | _ => simp [cleanses] at hp

/-- Demoting apart, every pass keeps a clean network clean. -/
theorem Yields.clean (h : p.Yields c f g) (hc : c.wildcards.check = .ok ()) (hf : f.WellFormed)
    (hp : p.isDemote = false) (hclean : f.Clean c.wildcards) : g.Clean c.wildcards := by
  obtain ⟨-, -, hw⟩ := Wildcards.check_eq_ok_iff.1 hc
  cases h with
  | demote side => simp [isDemote] at hp
  | restore => exact Yields.restore.clean_of_cleanses hc hf rfl
  | expand checked =>
    obtain ⟨rfl, hconcrete, -⟩ := checkAlphabet_eq_ok_iff.1 checked
    exact hclean.expand hf hw hconcrete
  | strip => exact hclean.strip hf
  | close checked =>
    obtain ⟨rfl, hconcrete, -⟩ := checkAlphabet_eq_ok_iff.1 checked
    exact hclean.close hf hw hconcrete
  | project side => exact (Yields.project side).clean_of_cleanses hc hf rfl
  | blank side => exact (Yields.blank side).clean_of_cleanses hc hf rfl
  | synchronize => exact hclean.synchronize hf hw _

theorem Pipeline.clean (h : Pipeline c f ps g) (hc : c.wildcards.check = .ok ())
    (hf : f.WellFormed) (hps : ∀ p ∈ ps, p.isDemote = false) (hclean : f.Clean c.wildcards) :
    g.Clean c.wildcards := by
  have hboth : g.WellFormed ∧ g.Clean c.wildcards := by
    apply h.induction _ ⟨hf, hclean⟩
    intro p hp f g hyields hfg
    exact ⟨hyields.wellFormed hfg.1, hyields.clean hc hfg.1 (hps p hp) hfg.2⟩
  exact hboth.2

end Pass

theorem Settings.check_wildcards {c : Settings} (h : c.check = .ok ()) :
    c.wildcards.check = .ok () :=
  (check_eq_ok_iff_parts.1 h).1

/-- Passes that succeed one after the other on a well-formed network leave a clean one if none of
them demotes and the network was clean, or if none demotes after one that restores, projects or
blanks. -/
theorem Network.isClean_report_of_pipeline {c : Settings} {f g : Network} {ps : List Pass}
    (hc : c.check = .ok ()) (hf : f.WellFormed) (hrun : Pass.Pipeline c f ps g)
    (hps : (f.disallowedPairs c.wildcards = [] ∧ ∀ p ∈ ps, p.isDemote = false) ∨
      ∃ before p after, ps = before ++ p :: after ∧ p.cleanses = true ∧
        ∀ q ∈ after, q.isDemote = false) :
    g.disallowedPairs c.wildcards = [] ∧ (g.report c.wildcards).isClean = true := by
  have hw := c.check_wildcards hc
  have hclean : g.Clean c.wildcards := by
    rcases hps with ⟨hf', hps⟩ | ⟨before, p, after, rfl, hp, hafter⟩
    · exact hrun.clean hw hf hps (clean_iff.2 hf')
    · obtain ⟨h, hbefore, hrun⟩ := Pass.pipeline_append_iff.1 hrun
      have hh := hbefore.wellFormed hf
      cases hrun with
      | cons ok rest =>
        have hyields := Pass.yields_of_run ok
        exact rest.clean hw (hyields.wellFormed hh) hafter (hyields.clean_of_cleanses hw hh hp)
  have hnil := clean_iff.1 hclean
  refine ⟨hnil, ?_⟩
  simp [report, Report.isClean, hnil]

/-- Demoting makes a network unclean, and restoring it and closing it over a symbol makes it clean
again. -/
theorem Network.isClean_report_of_demoted :
    let c : Settings := ⟨⟨100, 101⟩, none, [5]⟩
    let f : Network := ⟨#[⟨Weight.zero, [⟨100, 100, Weight.one, 1⟩]⟩,
      ⟨Weight.one, [⟨101, 101, Weight.one, 1⟩, ⟨7, 7, Weight.one, 0⟩]⟩], some 0⟩
    let demoted := ((Pass.demote .output).run c f).network
    let restored := (Pass.restore.run c demoted).network
    let closed := (Pass.close.run c restored).network
    demoted.disallowedPairs c.wildcards ≠ [] ∧
      c.check = .ok () ∧ f.WellFormed ∧
      Pass.Pipeline c f [.demote .output, .restore, .close] closed ∧
      closed.disallowedPairs c.wildcards = [] ∧ (closed.report c.wildcards).isClean = true := by
  intro c f demoted restored closed
  have hc : c.check = .ok () := by decide
  have hf : f.WellFormed := isWellFormed_eq_true_iff.1 (by decide)
  have hrun : Pass.Pipeline c f [.demote .output, .restore, .close] closed :=
    .cons rfl (.cons (by decide +kernel) (.cons (by decide +kernel) (.nil closed)))
  have hafter : ∀ q ∈ [Pass.close], q.isDemote = false := by decide
  exact ⟨by decide +kernel, hc, hf, hrun, isClean_report_of_pipeline hc hf hrun
    (.inr ⟨[.demote .output], .restore, [.close], rfl, rfl, hafter⟩)⟩

end WildcardNet
