import WildcardNet.Pass
import WildcardNet.Proofs.Closing
import WildcardNet.Proofs.Composition
import WildcardNet.Proofs.Linking
/-!
# What passes leave

Every pass that succeeds has either relabelled arcs in place, added arcs beside others, or trimmed.
This is said once, for all passes, and what holds of the networks along a sequence of passes follows
from it. Here it is shown that a well-formed network stays well formed, and that trimming leaves a
network in which every state is useful.
-/

namespace WildcardNet

namespace Network

variable {f : Network} {keep : Array Bool} {s k : StateId} {b : Arc}

/-! ### Trimmed networks -/

theorem rank_lt_size_restrict (hsize : keep.size = f.size) (hs : keep[s]? = some true) :
    rank keep s < (f.restrict keep).size := by
  have hlt : s < f.size := hsize ▸ (Array.getElem?_eq_some_iff.1 hs).1
  have hst := getElem?_restrict hsize hs (Array.getElem?_eq_getElem hlt)
  exact (Array.getElem?_eq_some_iff.1 hst).1

theorem exists_of_lt_size_restrict (hsize : keep.size = f.size) (hk : k < (f.restrict keep).size) :
    ∃ s, keep[s]? = some true ∧ k = rank keep s :=
  exists_of_getElem?_restrict hsize (Array.getElem?_eq_getElem hk)

theorem exists_of_mem_arcsFrom_restrict (hsize : keep.size = f.size)
    (hb : b ∈ (f.restrict keep).arcsFrom k) :
    ∃ s, ∃ a ∈ f.arcsFrom s, keep[a.target]? = some true ∧ a.moveTarget (rank keep) = b := by
  obtain ⟨s, hs, rfl⟩ := exists_of_lt_size_restrict hsize (lt_size_of_mem_arcsFrom hb)
  rw [arcsFrom_restrict hsize hs] at hb
  exact ⟨s, mem_keptArcs_iff.1 hb⟩

/-- Trimming a well-formed network leaves nothing or the useful part. -/
theorem trim_network_cases (hf : f.WellFormed) :
    f.trim.network = {} ∨ ∃ start, f.start = some start ∧ f.Useful start ∧
      f.trim.network = f.restrict (f.useful start) := by
  cases hstart : f.start with
  | none =>
    left
    simp [trim, hstart]
  | some start =>
    by_cases huseful : f.Useful start
    · exact .inr ⟨start, rfl, huseful, trim_network_of_useful hf hstart huseful⟩
    · exact .inl (trim_network_of_not_useful hf hstart huseful)

theorem wellFormed_empty : WellFormed {} := by
  constructor
  · simp
  · simp

theorem WellFormed.trim (hf : f.WellFormed) : f.trim.network.WellFormed := by
  rcases trim_network_cases hf with hempty | ⟨start, hstart, huseful, heq⟩
  · rw [hempty]
    exact wellFormed_empty
  · have hsize := size_useful f start
    have hkept := (getElem?_useful_iff hf hstart).2 huseful
    rw [heq]
    apply wellFormed_of_arcsFrom
    · intro s hs
      rw [start_restrict hstart] at hs
      cases hs
      exact rank_lt_size_restrict hsize hkept
    · intro s b hb
      obtain ⟨t, a, -, htarget, rfl⟩ := exists_of_mem_arcsFrom_restrict hsize hb
      exact rank_lt_size_restrict hsize htarget

/-- The arcs of a trimmed network have label pairs that the network had. -/
theorem forall_pair_trim {p : Label → Label → Prop} (hf : f.WellFormed)
    (h : ∀ s, ∀ a ∈ f.arcsFrom s, p a.input a.output) :
    ∀ s, ∀ b ∈ f.trim.network.arcsFrom s, p b.input b.output := by
  intro s b hb
  rcases trim_network_cases hf with hempty | ⟨start, -, -, heq⟩
  · rw [hempty] at hb
    simp [arcsFrom, arcs?] at hb
  · rw [heq] at hb
    obtain ⟨t, a, ha, -, rfl⟩ := exists_of_mem_arcsFrom_restrict (size_useful f start) hb
    exact h t a ha

/-- Every state of a trimmed network lies on a run from the start to a final state. -/
theorem useful_trim (hf : f.WellFormed) : ∀ k < f.trim.network.size, f.trim.network.Useful k := by
  intro k hk
  rcases trim_network_cases hf with hempty | ⟨start, hstart, huseful, heq⟩
  · rw [hempty] at hk
    exact absurd hk (Nat.not_lt_zero k)
  · have hsize := size_useful f start
    have hmark : ∀ s, (f.useful start)[s]? = some true ↔ f.Useful s :=
      fun s => getElem?_useful_iff hf hstart
    have hkept := (hmark start).2 huseful
    rw [heq] at hk ⊢
    obtain ⟨s, hs, rfl⟩ := exists_of_lt_size_restrict hsize hk
    obtain ⟨⟨start', hstart', arcs, hrun⟩, t, ⟨arcs', hrun'⟩, hfinal⟩ := (hmark s).1 hs
    obtain rfl : start = start' := by simpa [hstart] using hstart'
    -- Both halves of the run through the state stay among the useful states.
    have hbefore := (hrun.append hrun').useful hstart (Reaches.refl f start) hfinal
    have hafter := hrun'.useful hstart ⟨arcs, hrun⟩ hfinal
    have ht : f.Useful t := ⟨⟨start, hstart, _, hrun.append hrun'⟩, t, Reaches.refl f t, hfinal⟩
    refine ⟨⟨_, start_restrict hstart, _, (run_restrict_iff hsize hkept).2
      ⟨arcs, s, hrun, hs, ?_, rfl, rfl⟩⟩, rank _ t, ⟨_, (run_restrict_iff hsize hs).2
      ⟨arcs', t, hrun', (hmark t).2 ht, ?_, rfl, rfl⟩⟩, ?_⟩
    · exact fun a ha => (hmark _).2 (hbefore.2 a (List.mem_append_left _ ha))
    · exact fun a ha => (hmark _).2 (hafter.2 a ha)
    · exact (isFinal_congr (final?_restrict hsize ((hmark t).2 ht))).2 hfinal

/-! ### Pruned networks -/

theorem pruneArcs_network (hf : f.WellFormed) (doomed : Arc → Bool) :
    (f.pruneArcs doomed).network = (f.sinkArcs doomed).trim.network := by
  rw [pruneArcs, Outcome.andThen_network_of_ok (trim_result (hf.sinkArcs doomed))]

theorem WellFormed.pruneArcs (hf : f.WellFormed) (doomed : Arc → Bool) :
    (f.pruneArcs doomed).network.WellFormed := by
  rw [pruneArcs_network hf]
  exact (hf.sinkArcs doomed).trim

theorem forall_pair_pruneArcs {p : Label → Label → Prop} (hf : f.WellFormed) (doomed : Arc → Bool)
    (h : ∀ s, ∀ a ∈ f.arcsFrom s, p a.input a.output) :
    ∀ s, ∀ b ∈ (f.pruneArcs doomed).network.arcsFrom s, p b.input b.output := by
  rw [pruneArcs_network hf]
  apply forall_pair_trim (p := p) (hf.sinkArcs doomed)
  intro s b hb
  rw [arcsFrom_sinkArcs] at hb
  obtain ⟨a, ha, rfl⟩ := List.mem_map.1 hb
  have hpair := h s a ha
  split
  · exact hpair
  · exact hpair

theorem strip_network (hf : f.WellFormed) (w : Wildcards) :
    (f.strip w).network = (f.pruneArcs w.onArc).network := by
  rw [strip, Outcome.andThen_network_of_ok (pruneArcs_result hf w.onArc)]

theorem close_network (hf : f.WellFormed) (w : Wildcards) (alphabet : List Label) :
    (f.close w alphabet).network = ((f.expand w alphabet).network.strip w).network := by
  rw [close, Outcome.andThen_network_of_ok (expand_result hf),
    Outcome.andThen_network_of_ok (strip_result (hf.expand w alphabet) w)]

theorem close_result (hf : f.WellFormed) (w : Wildcards) (alphabet : List Label) :
    (f.close w alphabet).result = .ok alphabet.eraseDups := by
  rw [close, Outcome.andThen_result_of_ok (expand_result hf),
    Outcome.andThen_result_of_ok (strip_result (hf.expand w alphabet) w)]

/-! ### Relabelled networks -/

theorem WellFormed.mapArcs (hf : f.WellFormed) {g : Arc → Arc}
    (hg : ∀ a, (g a).target = a.target) : (f.mapArcs g).WellFormed := by
  apply wellFormed_of_arcsFrom
  · simpa using hf.1
  · intro s b hb
    rw [arcsFrom_mapArcs] at hb
    obtain ⟨a, ha, rfl⟩ := List.mem_map.1 hb
    rw [size_mapArcs, hg]
    exact hf.target_lt ha

theorem WellFormed.restore (hf : f.WellFormed) (w : Wildcards) :
    (f.restore w).network.WellFormed := by
  rw [restore_network hf]
  apply WellFormed.appendArcs _ (admits_twins hf)
  apply hf.mapArcs
  intro a
  exact Wildcards.target_of_mem_restoredArcs (Wildcards.mem_restoredArcs_iff.2 (.inl rfl))

end Network

/-! ### Successful passes -/

namespace Wildcards

theorem target_demoteArc (w : Wildcards) (side : Side) (a : Arc) :
    (w.demoteArc side a).target = a.target := by
  cases side <;> rfl

theorem target_blankArc (w : Wildcards) (side : Side) (a : Arc) :
    (w.blankArc side a).target = a.target := by
  cases side <;> rfl

end Wildcards

namespace Pass

variable {c : Settings} {f g : Network} {p : Pass}

/-- What a pass leaves of a network when it succeeds. -/
inductive Yields (c : Settings) (f : Network) : Pass → Network → Prop
  | demote (side : Side) : Yields c f (.demote side) (f.mapArcs (c.wildcards.demoteArc side))
  | restore : Yields c f .restore (f.restore c.wildcards).network
  | expand {alphabet : List Label} (checked : c.checkedAlphabet = .ok alphabet) :
      Yields c f .expand (f.expand c.wildcards alphabet).network
  | strip : Yields c f .strip (f.strip c.wildcards).network
  | close {alphabet : List Label} (checked : c.checkedAlphabet = .ok alphabet) :
      Yields c f .close (f.close c.wildcards alphabet).network
  | project (side : Side) : Yields c f (.project side) (f.mapArcs (c.wildcards.projectArc side))
  | blank (side : Side) : Yields c f (.blank side) (f.mapArcs (c.wildcards.blankArc side))
  | synchronize {rule : RuleMarks} (given : c.rule = some rule) :
      Yields c f .synchronize (f.synchronize rule c.wildcards).network

theorem runOverAlphabet_eq_ok {pass : List Label → Outcome NetworkError (List Label)}
    (h : (p.runOverAlphabet c f pass).result = .ok ()) :
    ∃ alphabet, c.checkedAlphabet = .ok alphabet ∧
      (p.runOverAlphabet c f pass).network = (pass alphabet).network := by
  cases hchecked : c.checkedAlphabet with
  | error e => simp [runOverAlphabet, hchecked] at h
  | ok alphabet =>
    refine ⟨alphabet, rfl, ?_⟩
    cases hpass : (pass alphabet).result with
    | error e =>
      simp [runOverAlphabet, hchecked, Outcome.after, Outcome.andThen, Outcome.mapError, hpass,
        Except.mapError] at h
    | ok symbols =>
      simp [runOverAlphabet, hchecked, Outcome.after, Outcome.andThen, Outcome.mapError, hpass,
        Except.mapError]

theorem yields_of_run (h : (p.run c f).result = .ok ()) : p.Yields c f (p.run c f).network := by
  cases p with
  | demote side => exact .demote side
  | restore => exact .restore
  | expand =>
    obtain ⟨alphabet, hchecked, hnetwork⟩ := runOverAlphabet_eq_ok h
    rw [run, hnetwork]
    exact .expand hchecked
  | strip => exact .strip
  | close =>
    obtain ⟨alphabet, hchecked, hnetwork⟩ := runOverAlphabet_eq_ok h
    rw [run, hnetwork]
    exact .close hchecked
  | project side => exact .project side
  | blank side => exact .blank side
  | synchronize =>
    cases hrule : c.rule with
    | none => simp [run, hrule] at h
    | some rule =>
      simp only [run, hrule]
      exact .synchronize hrule

theorem Yields.wellFormed (h : p.Yields c f g) (hf : f.WellFormed) : g.WellFormed := by
  cases h with
  | demote side => exact hf.mapArcs (c.wildcards.target_demoteArc side)
  | restore => exact hf.restore c.wildcards
  | expand => exact hf.expand c.wildcards _
  | strip =>
    rw [Network.strip_network hf]
    exact hf.pruneArcs _
  | close =>
    have hexpand := hf.expand c.wildcards
    rw [Network.close_network hf, Network.strip_network (hexpand _)]
    exact (hexpand _).pruneArcs _
  | project side => exact hf.mapArcs fun _ => rfl
  | blank side => exact hf.mapArcs (c.wildcards.target_blankArc side)
  | synchronize =>
    rw [Network.synchronize_network hf]
    exact (hf.withLinks _ _).pruneArcs _

/-- The passes succeed one after the other, each on what the one before it left. -/
inductive Pipeline (c : Settings) : Network → List Pass → Network → Prop
  | nil (f : Network) : Pipeline c f [] f
  | cons {f g : Network} {p : Pass} {ps : List Pass} (ok : (p.run c f).result = .ok ())
      (rest : Pipeline c (p.run c f).network ps g) : Pipeline c f (p :: ps) g

theorem pipeline_append_iff {ps qs : List Pass} :
    Pipeline c f (ps ++ qs) g ↔ ∃ h, Pipeline c f ps h ∧ Pipeline c h qs g := by
  constructor
  · intro hrun
    induction ps generalizing f with
    | nil => exact ⟨f, .nil f, hrun⟩
    | cons p ps ih =>
      cases hrun with
      | cons ok rest =>
        obtain ⟨h, hps, hqs⟩ := ih rest
        exact ⟨h, .cons ok hps, hqs⟩
  · rintro ⟨h, hps, hqs⟩
    induction hps with
    | nil => exact hqs
    | cons ok _ ih => exact .cons ok (ih hqs)

/-- What every pass of a sequence keeps, the sequence keeps. -/
theorem Pipeline.induction {P : Network → Prop} {ps : List Pass} (h : Pipeline c f ps g)
    (hstep : ∀ p ∈ ps, ∀ f g, p.Yields c f g → P f → P g) (hf : P f) : P g := by
  induction h with
  | nil => exact hf
  | @cons f g p ps ok _ ih =>
    apply ih
    · exact fun q hq => hstep q (List.mem_cons_of_mem p hq)
    · exact hstep p List.mem_cons_self f _ (yields_of_run ok) hf

theorem Pipeline.wellFormed {ps : List Pass} (h : Pipeline c f ps g) (hf : f.WellFormed) :
    g.WellFormed :=
  h.induction (fun _ _ _ _ hyields => hyields.wellFormed) hf

end Pass

end WildcardNet
