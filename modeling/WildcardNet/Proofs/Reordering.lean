import WildcardNet.Proofs.Joining
import WildcardNet.Proofs.Reexpansion
import WildcardNet.Proofs.Sessions
/-!
# The order of arcs does not matter

A pass meets the arcs of a state in the order in which they are stored, and puts new arcs behind
them. Two networks that differ in this order only are taken by every pass to networks that again
differ in the order of arcs only: what is added at a state depends on each arc by itself, or on
triples of arcs of which all are taken, and what is trimmed depends on which states can be reached.
A pass is refused for its settings and never for the order of arcs.
-/

namespace WildcardNet

namespace Network

variable {f g : Network}

namespace SameUpToOrder

theorem mapArcs (h : f.SameUpToOrder g) (φ : Arc → Arc) :
    (f.mapArcs φ).SameUpToOrder (g.mapArcs φ) := by
  constructor
  · exact h.start_eq
  · simpa using h.size_eq
  · simpa using h.final?_eq
  · intro s
    rw [arcsFrom_mapArcs, arcsFrom_mapArcs]
    exact (h.arcs_related s).map φ

theorem restore (h : f.SameUpToOrder g) (hf : f.WellFormed) (w : Wildcards) :
    (f.restore w).network.SameUpToOrder (g.restore w).network := by
  have hg := h.wellFormed hf
  constructor
  · rw [start_restore hf, start_restore hg, h.start_eq]
  · rw [size_restore hf, size_restore hg, h.size_eq]
  · intro s
    rw [final?_restore hf, final?_restore hg, h.final?_eq]
  · intro s
    have harcs := h.arcs_related s
    rw [arcsFrom_restore hf, arcsFrom_restore hg]
    exact (harcs.map _).append ((harcs.filter _).map _)

theorem expand (h : f.SameUpToOrder g) (hf : f.WellFormed) (w : Wildcards)
    (alphabet : List Label) :
    (f.expand w alphabet).network.SameUpToOrder (g.expand w alphabet).network := by
  have hg := h.wellFormed hf
  constructor
  · rw [start_expand hf, start_expand hg, h.start_eq]
  · rw [size_expand hf, size_expand hg, h.size_eq]
  · intro s
    rw [final?_expand hf, final?_expand hg, h.final?_eq]
  · intro s
    have harcs := h.arcs_related s
    rw [arcsFrom_expand hf, arcsFrom_expand hg]
    exact harcs.append (harcs.flatMap_right _)

theorem close (h : f.SameUpToOrder g) (hf : f.WellFormed) (w : Wildcards)
    (alphabet : List Label) :
    (f.close w alphabet).network.SameUpToOrder (g.close w alphabet).network := by
  rw [close_network hf, close_network (h.wellFormed hf)]
  exact (h.expand hf w alphabet).strip (hf.expand w alphabet) w

/-- Sorting keeps arcs with equal labels in their order, so the sorted networks may still differ. -/
theorem sortArcs (h : f.SameUpToOrder g) : f.sortArcs.SameUpToOrder g.sortArcs := by
  have hf := sortArcs_sameUpToOrder f
  have hg := sortArcs_sameUpToOrder g
  constructor
  · exact h.start_eq
  · rw [hf.size_eq, hg.size_eq, h.size_eq]
  · intro s
    rw [hf.final?_eq, hg.final?_eq, h.final?_eq]
  · intro s
    exact (hf.arcs_related s).trans ((h.arcs_related s).trans (hg.arcs_related s).symm)

theorem withLinks (h : f.SameUpToOrder g) (rule : RuleMarks) (w : Wildcards) :
    (f.withLinks rule w).SameUpToOrder (g.withLinks rule w) := by
  have hsorted := h.sortArcs
  constructor
  · exact h.start_eq
  · rw [Network.withLinks, Network.withLinks, size_appendArcs, size_appendArcs, hsorted.size_eq]
  · intro s
    rw [Network.withLinks, Network.withLinks, final?_appendArcs, final?_appendArcs,
      hsorted.final?_eq]
  · intro s
    have harcs := hsorted.arcs_related s
    rw [arcsFrom_withLinks, arcsFrom_withLinks]
    exact harcs.append ((perm_joinsAfter hsorted rule harcs).map _)

theorem synchronize (h : f.SameUpToOrder g) (hf : f.WellFormed) (rule : RuleMarks)
    (w : Wildcards) :
    (f.synchronize rule w).network.SameUpToOrder (g.synchronize rule w).network := by
  rw [synchronize_network hf, synchronize_network (h.wellFormed hf)]
  exact (h.withLinks rule w).pruneArcs (hf.withLinks rule w) _

end SameUpToOrder

end Network

namespace Pass

variable {c : Settings} {f f' g g' : Network} {p : Pass}

/-- What a pass leaves of two networks that differ in the order of arcs differs in it at most. -/
theorem Yields.sameUpToOrder (hf' : p.Yields c f f') (hg' : p.Yields c g g')
    (h : f.SameUpToOrder g) (hf : f.WellFormed) : f'.SameUpToOrder g' := by
  cases hf' with
  | demote side =>
    cases hg'
    exact h.mapArcs _
  | restore =>
    cases hg'
    exact h.restore hf _
  | expand checked =>
    cases hg' with
    | expand checked' =>
      obtain rfl := Except.ok.inj (checked.symm.trans checked')
      exact h.expand hf _ _
  | strip =>
    cases hg'
    exact h.strip hf _
  | close checked =>
    cases hg' with
    | close checked' =>
      obtain rfl := Except.ok.inj (checked.symm.trans checked')
      exact h.close hf _ _
  | project side =>
    cases hg'
    exact h.mapArcs _
  | blank side =>
    cases hg'
    exact h.mapArcs _
  | synchronize given =>
    cases hg' with
    | synchronize given' =>
      obtain rfl := Option.some.inj (given.symm.trans given')
      exact h.synchronize hf _ _

/-- A pass has the same outcome on two well-formed networks that differ in the order of arcs only,
and what it leaves of them differs in the order of arcs only. -/
theorem run_sameUpToOrder (hf : f.WellFormed) (h : f.SameUpToOrder g) (p : Pass) (c : Settings) :
    (p.run c f).result = (p.run c g).result ∧
      (p.run c f).network.SameUpToOrder (p.run c g).network := by
  have hg := h.wellFormed hf
  cases hresult : (p.run c f).result with
  | error e =>
    -- The settings alone decide whether a pass is refused.
    have hrefuses := (run_result_eq_error_iff hf).1 hresult
    rw [run_of_refuses hrefuses f, run_of_refuses hrefuses g]
    exact ⟨rfl, h⟩
  | ok =>
    have hnever : ∀ e, ¬ p.Refuses c e := by
      intro e he
      rw [(run_result_eq_error_iff hf).2 he] at hresult
      cases hresult
    have hresult' := run_result_of_not_refuses hg hnever
    exact ⟨hresult'.symm, (yields_of_run hresult).sameUpToOrder (yields_of_run hresult') h hf⟩

/-- Two first arcs that sorting cannot tell apart stand in different orders, and so do two last
arcs. -/
theorem run_sameUpToOrder_equal_labels :
    let c : Settings := ⟨⟨100, 101⟩, some ⟨200, 201⟩, []⟩
    let rest : Array State := #[⟨Weight.zero, [⟨200, 200, Weight.one, 3⟩]⟩,
      ⟨Weight.zero, [⟨200, 200, Weight.one, 3⟩, ⟨9, 9, Weight.one, 2⟩]⟩]
    let f : Network := ⟨#[⟨Weight.zero, [⟨5, 201, Weight.one, 1⟩, ⟨5, 201, Weight.one, 2⟩]⟩] ++
      rest ++ #[⟨Weight.zero, [⟨201, 7, Weight.one, 4⟩, ⟨201, 100, Weight.one, 4⟩]⟩,
      ⟨Weight.one, []⟩], some 0⟩
    let g : Network := ⟨#[⟨Weight.zero, [⟨5, 201, Weight.one, 2⟩, ⟨5, 201, Weight.one, 1⟩]⟩] ++
      rest ++ #[⟨Weight.zero, [⟨201, 100, Weight.one, 4⟩, ⟨201, 7, Weight.one, 4⟩]⟩,
      ⟨Weight.one, []⟩], some 0⟩
    f.WellFormed ∧ f.SameUpToOrder g ∧ f ≠ g ∧
      (Pass.synchronize.run c f).result = (Pass.synchronize.run c g).result ∧
      (Pass.synchronize.run c f).network.SameUpToOrder (Pass.synchronize.run c g).network := by
  intro c rest f g
  have hf : f.WellFormed := Network.isWellFormed_eq_true_iff.1 (by decide)
  have h : f.SameUpToOrder g := by decide
  exact ⟨hf, h, by decide, run_sameUpToOrder hf h .synchronize c⟩

end Pass

end WildcardNet
