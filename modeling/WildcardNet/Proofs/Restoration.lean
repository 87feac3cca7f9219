import WildcardNet.Proofs.Cleanness
import WildcardNet.Proofs.Relabelling
/-!
# The table of repairs

Restoring changes the labels of an arc by a table of repairs, of which the first that applies
counts. A twin is due to the labels that an arc had before, so an arc that gets the other wildcard
on both sides by a repair has none. The arcs of a state keep their order, and the twins stand behind
them.
-/

namespace WildcardNet

/-! ### Repairs -/

structure Repair where
  applies : Label × Label → Bool
  outcome : Label × Label → Label × Label

/-- What the first repair that applies makes of a pair. A pair that none applies to is kept. -/
def Repair.first (repairs : List Repair) (p : Label × Label) : Label × Label :=
  match repairs.find? fun repair => repair.applies p with
  | none => p
  | some repair => repair.outcome p

theorem Repair.first_cons (repair : Repair) (repairs : List Repair) (p : Label × Label) :
    Repair.first (repair :: repairs) p =
      if repair.applies p then repair.outcome p else Repair.first repairs p := by
  rw [first, List.find?_cons]
  cases repair.applies p <;> rfl

namespace Wildcards

/-- An identity wildcard that stands alone on the input side, one that faces the other wildcard, and
one that faces a label that is no wildcard. -/
def repairs (w : Wildcards) : List Repair :=
  [⟨fun p => p.1 = w.identity ∧ p.2 ≠ w.identity, fun p => (w.other, p.2)⟩,
    ⟨fun p => p.1 = w.other ∧ p.2 = w.identity, fun _ => (w.other, w.other)⟩,
    ⟨fun p => w.isWildcard p.1 = false ∧ p.2 = w.identity, fun p => (p.1, w.other)⟩]

theorem first_repairs (w : Wildcards) (i o : Label) :
    Repair.first w.repairs (i, o) =
      if i = w.identity then if o = w.identity then (i, o) else (w.other, o)
      else if o = w.identity then (i, w.other) else (i, o) := by
  simp only [repairs, Repair.first_cons, isWildcard_eq_false_iff]
  by_cases ho : o = w.identity
  · by_cases hi : i = w.identity
    · -- The second repair applies only if the two wildcards are one, and then changes nothing.
      by_cases hw : w.identity = w.other <;> simp [hi, ho, hw, Repair.first]
    · by_cases hother : i = w.other
      · simp [ho, hother]
      · simp [hi, ho, hother]
  · by_cases hi : i = w.identity
    · simp [hi, ho]
    · simp [hi, ho, Repair.first]

theorem repairArc_eq (w : Wildcards) (a : Arc) :
    w.repairArc a = a.relabel (Repair.first w.repairs) := by
  rw [repairArc, Arc.relabel, first_repairs]
  split <;> split <;> rfl

end Wildcards

/-! ### Networks -/

namespace Network

variable {f : Network} {w : Wildcards}

/-- Restoring never fails. The arcs of a state are repaired in place by the table, and behind them
stands a twin for each one that had the other wildcard on both sides before, in order. No identity
wildcard is left facing another label, and nothing else is changed. -/
theorem restore_tabled (hf : f.WellFormed) (hw : w.check = .ok ()) :
    (f.restore w).result = .ok () ∧ (f.restore w).network.disallowedPairs w = [] ∧
    (∀ s, (f.restore w).network.arcsFrom s =
      (f.arcsFrom s).map (Arc.relabel (Repair.first w.repairs)) ++
        ((f.arcsFrom s).filter fun a => a.input = w.other ∧ a.output = w.other).map
          (Arc.relabel fun _ => (w.identity, w.identity))) ∧
    (f.restore w).network.size = f.size ∧ (f.restore w).network.start = f.start ∧
    ∀ s, (f.restore w).network.final? s = f.final? s := by
  obtain ⟨-, -, hne⟩ := Wildcards.check_eq_ok_iff.1 hw
  refine ⟨restore_result hf w, clean_iff.1 (clean_restore hf hne), ?_, size_restore hf,
    start_restore hf, final?_restore hf⟩
  intro s
  have hrepair : w.repairArc = Arc.relabel (Repair.first w.repairs) := funext w.repairArc_eq
  have hneeds : w.needsTwin = fun a => decide (a.input = w.other ∧ a.output = w.other) := by
    funext a
    rw [Bool.eq_iff_iff, decide_eq_true_iff]
    exact Wildcards.needsTwin_iff hne
  have htwin : w.twin = Arc.relabel fun _ => (w.identity, w.identity) := rfl
  rw [arcsFrom_restore hf, hrepair, hneeds, htwin]

/-- A state with an arc for each repair, one that needs a twin, and two that are kept. The second
arc gets the other wildcard on both sides, but no twin. -/
theorem restore_tabled_each_repair :
    let w : Wildcards := ⟨100, 101⟩
    let f : Network := ⟨#[
      ⟨Weight.one, [⟨100, 1, Weight.one, 1⟩, ⟨101, 100, Weight.one, 0⟩, ⟨101, 101, Weight.zero, 1⟩,
        ⟨0, 100, Weight.one, 1⟩, ⟨100, 100, Weight.one, 0⟩, ⟨101, 2, Weight.one, 1⟩]⟩,
      ⟨Weight.zero, []⟩], some 0⟩
    f.WellFormed ∧ w.check = .ok () ∧ f.disallowedPairs w ≠ [] ∧
      (f.restore w).network.arcsFrom 0 =
        [⟨101, 1, Weight.one, 1⟩, ⟨101, 101, Weight.one, 0⟩, ⟨101, 101, Weight.zero, 1⟩,
          ⟨0, 101, Weight.one, 1⟩, ⟨100, 100, Weight.one, 0⟩, ⟨101, 2, Weight.one, 1⟩,
          ⟨100, 100, Weight.zero, 1⟩] ∧
      (f.restore w).network.disallowedPairs w = [] := by
  intro w f
  have hf : f.WellFormed := isWellFormed_eq_true_iff.1 (by decide)
  have hw : w.check = .ok () := by decide
  obtain ⟨-, hclean, harcs, -⟩ := restore_tabled hf hw
  have hpairs : f.disallowedPairs w ≠ [] := by decide
  refine ⟨hf, hw, hpairs, ?_, hclean⟩
  rw [harcs]
  decide

end Network

end WildcardNet
