import Mathlib.Data.List.TakeWhile
import WildcardNet.Proofs.Edits
/-!
# Inserting a stage

The arcs of a stage go into the network one after another, and each is checked when its turn comes.
An arc that fits takes no state away and adds none, so whether the later ones fit is known from the
start: insertion gets as far as the first arc that names a state which does not exist, whatever the
sources of the arcs before it.
-/

namespace WildcardNet.Network

variable {f : Network} {stage : List PlacedArc} {k : Nat} {p : PlacedArc}

/-- The arc at place `k` is the first of the stage that does not fit. -/
structure FirstRefused (f : Network) (stage : List PlacedArc) (k : Nat) (p : PlacedArc) : Prop where
  getElem?_eq : stage[k]? = some p
  refused : f.admits p = false
  before : ∀ q ∈ stage.take k, f.admits q = true

theorem FirstRefused.eq_append (h : FirstRefused f stage k p) :
    stage = stage.take k ++ p :: stage.drop (k + 1) := by
  obtain ⟨hk, hp⟩ := List.getElem?_eq_some_iff.1 h.getElem?_eq
  rw [← hp, ← List.drop_eq_getElem_cons hk, List.take_append_drop]

theorem exists_firstRefused (h : ¬ ∀ q ∈ stage, f.admits q = true) :
    ∃ k p, FirstRefused f stage k p := by
  have hrefused : ∃ q ∈ stage, (!f.admits q) = true := by simpa using h
  have hlt := List.findIdx_lt_length_of_exists hrefused
  refine ⟨stage.findIdx fun q => !f.admits q, _, List.getElem?_eq_getElem hlt, ?_, ?_⟩
  · simpa using List.findIdx_getElem (w := hlt)
  · intro q hq
    rw [← List.takeWhile_eq_take_findIdx_not] at hq
    exact List.mem_takeWhile_imp hq

theorem missingState_appendArcs (f : Network) (arcs : List PlacedArc) (p : PlacedArc) :
    (f.appendArcs arcs).missingState p = f.missingState p := by
  simp [missingState]

theorem FirstRefused.addStaged_eq (h : FirstRefused f stage k p) :
    f.addStaged stage = ([], ⟨f.appendArcs (stage.take k), [],
      .error (.noSuchState (f.missingState p) f.size)⟩) := by
  have hrefused : (f.appendArcs (stage.take k)).admits p = false := by
    rw [admits_appendArcs]
    exact h.refused
  calc
    f.addStaged stage = f.addStaged (stage.take k ++ p :: stage.drop (k + 1)) := by
      rw [← h.eq_append]
    _ = (f.appendArcs (stage.take k)).addStaged (p :: stage.drop (k + 1)) :=
      addStaged_append h.before _
    _ = _ := by
      rw [addStaged, addArc_eq_error hrefused, missingState_appendArcs, size_appendArcs]

theorem FirstRefused.applyStage_eq (h : FirstRefused f stage k p) :
    f.applyStage stage = ([], ⟨f.appendArcs (stage.take k), [],
      .error (.noSuchState (f.missingState p) f.size)⟩) := by
  rw [applyStage, h.addStaged_eq]
  rfl

theorem applyStage_left (f : Network) (stage : List PlacedArc) : (f.applyStage stage).1 = [] := by
  by_cases hall : ∀ q ∈ stage, f.admits q = true
  · rw [applyStage_of_admits hall]
  · obtain ⟨k, p, h⟩ := exists_firstRefused hall
    rw [h.applyStage_eq]

/-- Nothing stays staged. Arcs that all fit are appended to those of their sources, in staging
order, and counted. Otherwise the arcs before the first that does not fit are, and the error names
the source of that one if it is missing, and else its target. -/
theorem applyStage_up_to_first_refused (f : Network) (stage : List PlacedArc) :
    (f.applyStage stage).1 = [] ∧
      ((∀ q ∈ stage, f.admits q = true) →
        (f.applyStage stage).2 = ⟨f.appendArcs stage, [], .ok stage.length⟩) ∧
      (∀ k p, FirstRefused f stage k p →
        (f.applyStage stage).2 = ⟨f.appendArcs (stage.take k), [],
          .error (.noSuchState (f.missingState p) f.size)⟩) ∧
      ((¬ ∀ q ∈ stage, f.admits q = true) → ∃ k p, FirstRefused f stage k p) := by
  refine ⟨applyStage_left f stage, ?_, ?_, exists_firstRefused⟩
  · intro hall
    rw [applyStage_of_admits hall]
  · intro k p h
    rw [h.applyStage_eq]

/-- Three arcs from two states go in by turns before one that leads nowhere. Neither the arc behind
it, of which both ends are missing, nor the last one, which fits, is looked at. -/
theorem applyStage_up_to_first_refused_by_turns :
    let a (c : Label) (t : StateId) : Arc := ⟨c, c, Weight.one, t⟩
    let f : Network := ⟨#[⟨Weight.zero, [a 1 1]⟩, ⟨Weight.one, []⟩], some 0⟩
    let stage : List PlacedArc :=
      [⟨1, a 2 0⟩, ⟨0, a 3 0⟩, ⟨1, a 4 1⟩, ⟨0, a 5 7⟩, ⟨8, a 6 9⟩, ⟨0, a 7 1⟩]
    f.WellFormed ∧ FirstRefused f stage 3 ⟨0, a 5 7⟩ ∧
      f.appendArcs (stage.take 3) =
        ⟨#[⟨Weight.zero, [a 1 1, a 3 0]⟩, ⟨Weight.one, [a 2 0, a 4 1]⟩], some 0⟩ ∧
      f.applyStage stage =
        ([], ⟨f.appendArcs (stage.take 3), [], .error (.noSuchState 7 2)⟩) := by
  intro a f stage
  have hfirst : FirstRefused f stage 3 ⟨0, a 5 7⟩ := by
    refine ⟨rfl, by decide, ?_⟩
    simp [stage, admits, f, size, a]
  obtain ⟨hleft, -, hrefused, -⟩ := applyStage_up_to_first_refused f stage
  exact ⟨isWellFormed_eq_true_iff.1 (by decide), hfirst, by decide +kernel,
    Prod.ext hleft (hrefused 3 _ hfirst)⟩

end WildcardNet.Network
