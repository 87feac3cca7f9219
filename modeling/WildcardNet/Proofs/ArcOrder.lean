import Mathlib.Data.List.Perm.Basic
import WildcardNet.Proofs.Passes
/-!
# Networks that differ in their arcs only

Networks with the same states are compared state by state, through a relation between lists of arcs.
When the lists are permutations of each other, the networks differ only in the order in which arcs
are stored. Trimming looks at the targets of arcs and at nothing else, so it leaves of two such
networks what differs in the same way. An arc that leads to no useful state makes no difference to
it, and therefore pruning is the same as deleting the doomed arcs and trimming what is left.
-/

namespace WildcardNet

/-! ### Numbers depend on marks only -/

theorem rank_succ (keep : Array Bool) (s : Nat) :
    rank keep (s + 1) = rank keep s + if keep[s]? = some true then 1 else 0 := by
  rw [rank, List.take_add_one, List.count_append, Array.getElem?_toList, rank]
  cases keep[s]? with
  | none => rfl
  | some kept => cases kept <;> rfl

variable {keep keep' : Array Bool}

theorem rank_congr (h : ∀ s : Nat, keep[s]? = some true ↔ keep'[s]? = some true) (s : Nat) :
    rank keep s = rank keep' s := by
  induction s with
  | zero => rfl
  | succ s ih => simp only [rank_succ, ih, h]

namespace Network

variable {f g : Network} {s t : StateId} {arcs : List Arc}

theorem keptArcs_congr (hmarks : ∀ s : Nat, keep[s]? = some true ↔ keep'[s]? = some true)
    (arcs : List Arc) : keptArcs keep arcs = keptArcs keep' arcs := by
  have hrank : rank keep = rank keep' := funext (rank_congr hmarks)
  have hkept : ∀ a : Arc, keep.getD a.target false = keep'.getD a.target false := by
    intro a
    rw [Bool.eq_iff_iff, getD_keep_iff, getD_keep_iff, hmarks]
  simp only [keptArcs, hrank, hkept]

/-! ### Comparing networks -/

/-- The networks have the same states, and the arcs of every state are related. -/
structure Alike (related : List Arc → List Arc → Prop) (f g : Network) : Prop where
  start_eq : f.start = g.start
  size_eq : f.size = g.size
  final?_eq : ∀ s, f.final? s = g.final? s
  arcs_related : ∀ s, related (f.arcsFrom s) (g.arcsFrom s)

/-- The networks differ at most in the order of the arcs at a state. -/
abbrev SameUpToOrder (f g : Network) : Prop := Alike List.Perm f g

variable {related : List Arc → List Arc → Prop}

theorem Alike.eq (h : Alike (· = ·) f g) : f = g := by
  apply eq_of_final?_of_arcsFrom h.start_eq h.size_eq
  · exact fun s _ => h.final?_eq s
  · exact h.arcs_related

theorem Alike.isFinal_iff (h : Alike related f g) : f.IsFinal s ↔ g.IsFinal s :=
  isFinal_congr (h.final?_eq s)

theorem sameUpToOrder_iff :
    f.SameUpToOrder g ↔ f.start = g.start ∧ f.size = g.size ∧
      ∀ s < f.size, f.final? s = g.final? s ∧ (f.arcsFrom s).Perm (g.arcsFrom s) := by
  constructor
  · intro h
    exact ⟨h.start_eq, h.size_eq, fun s _ => ⟨h.final?_eq s, h.arcs_related s⟩⟩
  · rintro ⟨hstart, hsize, hstates⟩
    refine ⟨hstart, hsize, fun s => ?_, fun s => ?_⟩
    · rcases Nat.lt_or_ge s f.size with hs | hs
      · exact (hstates s hs).1
      · rw [final?_of_size_le hs, final?_of_size_le (hsize ▸ hs)]
    · rcases Nat.lt_or_ge s f.size with hs | hs
      · exact (hstates s hs).2
      · rw [arcsFrom_of_size_le hs, arcsFrom_of_size_le (hsize ▸ hs)]

instance (f g : Network) : Decidable (f.SameUpToOrder g) :=
  decidable_of_iff _ sameUpToOrder_iff.symm

theorem SameUpToOrder.refl (f : Network) : f.SameUpToOrder f :=
  ⟨rfl, rfl, fun _ => rfl, fun _ => .refl _⟩

theorem SameUpToOrder.symm (h : f.SameUpToOrder g) : g.SameUpToOrder f :=
  ⟨h.start_eq.symm, h.size_eq.symm, fun s => (h.final?_eq s).symm, fun s => (h.arcs_related s).symm⟩

theorem SameUpToOrder.trans {k : Network} (h : f.SameUpToOrder g) (h' : g.SameUpToOrder k) :
    f.SameUpToOrder k where
  start_eq := h.start_eq.trans h'.start_eq
  size_eq := h.size_eq.trans h'.size_eq
  final?_eq s := (h.final?_eq s).trans (h'.final?_eq s)
  arcs_related s := (h.arcs_related s).trans (h'.arcs_related s)

theorem SameUpToOrder.wellFormed (h : f.SameUpToOrder g) (hf : f.WellFormed) : g.WellFormed := by
  apply wellFormed_of_arcsFrom
  · intro s hs
    rw [← h.start_eq] at hs
    rw [← h.size_eq]
    exact hf.1 s hs
  · intro s a ha
    rw [← h.size_eq]
    exact hf.target_lt ((h.arcs_related s).mem_iff.2 ha)

/-! ### Trimming networks alike -/

theorem useful_congr (hstart : f.start = g.start) (hfinal : ∀ s, f.IsFinal s ↔ g.IsFinal s)
    (hnext : ∀ s t, t ∈ f.successors s ↔ t ∈ g.successors s) : f.Useful s ↔ g.Useful s := by
  have hsteps : LeadsTo f.successors = LeadsTo g.successors := by
    funext s t
    exact propext (hnext s t)
  simp only [Useful, reaches_iff, hstart, hfinal, hsteps]

theorem lt_size_restrict_iff (hsize : keep.size = f.size) {k : StateId} :
    k < (f.restrict keep).size ↔ ∃ s, keep[s]? = some true ∧ k = rank keep s := by
  constructor
  · exact exists_of_lt_size_restrict hsize
  · rintro ⟨s, hs, rfl⟩
    exact rank_lt_size_restrict hsize hs

theorem size_restrict_le (hsize : keep.size = f.size) (hsize' : keep'.size = g.size)
    (hmarks : ∀ s : Nat, keep[s]? = some true ↔ keep'[s]? = some true) :
    (f.restrict keep).size ≤ (g.restrict keep').size := by
  apply Nat.le_of_not_lt
  intro hlt
  obtain ⟨s, hs, hrank⟩ := (lt_size_restrict_iff hsize).1 hlt
  apply Nat.lt_irrefl (g.restrict keep').size
  rw [lt_size_restrict_iff hsize']
  exact ⟨s, (hmarks s).1 hs, by rw [hrank, rank_congr hmarks]⟩

/-- Keeping the same states of two networks leaves networks with the same states. -/
theorem alike_restrict (hsize : keep.size = f.size) (hsize' : keep'.size = g.size)
    (hmarks : ∀ s : Nat, keep[s]? = some true ↔ keep'[s]? = some true) {start : StateId}
    (hstart : f.start = some start) (hstart' : g.start = some start)
    (hnil : related [] []) (hfinal : ∀ s : Nat, keep[s]? = some true → f.final? s = g.final? s)
    (harcs : ∀ s : Nat, keep[s]? = some true →
      related (keptArcs keep (f.arcsFrom s)) (keptArcs keep (g.arcsFrom s))) :
    Alike related (f.restrict keep) (g.restrict keep') := by
  have hsizes : (f.restrict keep).size = (g.restrict keep').size := by
    apply Nat.le_antisymm
    · exact size_restrict_le hsize hsize' hmarks
    · exact size_restrict_le hsize' hsize fun s => (hmarks s).symm
  -- A state that is left has the same number on both sides.
  have hstate : ∀ k, (f.restrict keep).size ≤ k ∨ ∃ s, keep[s]? = some true ∧
      keep'[s]? = some true ∧ k = rank keep s ∧ k = rank keep' s := by
    intro k
    rcases Nat.lt_or_ge k (f.restrict keep).size with hk | hk
    · obtain ⟨s, hs, rfl⟩ := (lt_size_restrict_iff hsize).1 hk
      exact .inr ⟨s, hs, (hmarks s).1 hs, rfl, rank_congr hmarks s⟩
    · exact .inl hk
  constructor
  · rw [start_restrict hstart, start_restrict hstart', rank_congr hmarks]
  · exact hsizes
  · intro k
    rcases hstate k with hk | ⟨s, hs, hs', hrank, hrank'⟩
    · rw [final?_of_size_le hk, final?_of_size_le (hsizes ▸ hk)]
    · nth_rewrite 1 [hrank]
      rw [hrank', final?_restrict hsize hs, final?_restrict hsize' hs', hfinal s hs]
  · intro k
    rcases hstate k with hk | ⟨s, hs, hs', hrank, hrank'⟩
    · rw [arcsFrom_of_size_le hk, arcsFrom_of_size_le (hsizes ▸ hk)]
      exact hnil
    · nth_rewrite 1 [hrank]
      rw [hrank', arcsFrom_restrict hsize hs, arcsFrom_restrict hsize' hs', ← keptArcs_congr hmarks]
      exact harcs s hs

theorem alike_empty (hnil : related [] []) : Alike related {} {} :=
  ⟨rfl, rfl, fun _ => rfl, fun _ => hnil⟩

/-- Networks with the same useful states are alike when trimmed, as far as the arcs between useful
states are related. -/
theorem alike_trim (hf : f.WellFormed) (hg : g.WellFormed) (hstart : f.start = g.start)
    (huseful : ∀ s, f.Useful s ↔ g.Useful s) (hnil : related [] [])
    (hfinal : ∀ s, f.Useful s → f.final? s = g.final? s)
    (harcs : ∀ keep : Array Bool, (∀ s : Nat, keep[s]? = some true ↔ f.Useful s) →
      ∀ s, related (keptArcs keep (f.arcsFrom s)) (keptArcs keep (g.arcsFrom s))) :
    Alike related f.trim.network g.trim.network := by
  cases hs : f.start with
  | none =>
    have hempty : ∀ n : Network, n.start = none → n.trim.network = {} := by
      intro n hn
      simp [trim, hn]
    rw [hempty f hs, hempty g (hstart ▸ hs)]
    exact alike_empty hnil
  | some start =>
    have hs' : g.start = some start := hstart ▸ hs
    by_cases hlive : f.Useful start
    · have hmark : ∀ s, (f.useful start)[s]? = some true ↔ f.Useful s :=
        fun s => getElem?_useful_iff hf hs
      have hmark' : ∀ s, (g.useful start)[s]? = some true ↔ g.Useful s :=
        fun s => getElem?_useful_iff hg hs'
      rw [trim_network_of_useful hf hs hlive,
        trim_network_of_useful hg hs' ((huseful start).1 hlive)]
      apply alike_restrict (size_useful f start) (size_useful g start) _ hs hs' hnil
      · exact fun s hs => hfinal s ((hmark s).1 hs)
      · exact fun s _ => harcs _ hmark s
      · exact fun s => (hmark s).trans ((huseful s).trans (hmark' s).symm)
    · rw [trim_network_of_not_useful hf hs hlive,
        trim_network_of_not_useful hg hs' fun h => hlive ((huseful start).2 h)]
      exact alike_empty hnil

theorem SameUpToOrder.trim (h : f.SameUpToOrder g) (hf : f.WellFormed) :
    f.trim.network.SameUpToOrder g.trim.network := by
  have huseful : ∀ s, f.Useful s ↔ g.Useful s := by
    intro s
    apply useful_congr h.start_eq fun _ => h.isFinal_iff
    exact fun s t => ((h.arcs_related s).map Arc.target).mem_iff
  apply alike_trim hf (h.wellFormed hf) h.start_eq huseful (List.Perm.refl [])
  · exact fun s _ => h.final?_eq s
  · exact fun keep _ s => ((h.arcs_related s).filter _).map _

/-! ### Deleting arcs -/

/-- Leaves the doomed arcs out. -/
def deleteArcs (f : Network) (doomed : Arc → Bool) : Network :=
  { f with states := f.states.map fun st => { st with arcs := st.arcs.filter fun a => !doomed a } }

variable {doomed : Arc → Bool}

@[simp] theorem size_deleteArcs (f : Network) (doomed : Arc → Bool) :
    (f.deleteArcs doomed).size = f.size := by
  simp [deleteArcs, size]

@[simp] theorem start_deleteArcs (f : Network) (doomed : Arc → Bool) :
    (f.deleteArcs doomed).start = f.start := rfl

@[simp] theorem final?_deleteArcs (f : Network) (doomed : Arc → Bool) (s : StateId) :
    (f.deleteArcs doomed).final? s = f.final? s := by
  simp [deleteArcs, final?, Option.map_map, Function.comp_def]

@[simp] theorem arcsFrom_deleteArcs (f : Network) (doomed : Arc → Bool) (s : StateId) :
    (f.deleteArcs doomed).arcsFrom s = (f.arcsFrom s).filter fun a => !doomed a := by
  cases h : f.states[s]? <;> simp [deleteArcs, arcsFrom, arcs?, h]

theorem WellFormed.deleteArcs (hf : f.WellFormed) (doomed : Arc → Bool) :
    (f.deleteArcs doomed).WellFormed := by
  apply wellFormed_of_arcsFrom
  · simpa using hf.1
  · intro s a ha
    rw [arcsFrom_deleteArcs] at ha
    simpa using hf.target_lt (List.mem_of_mem_filter ha)

theorem run_deleteArcs_iff :
    (f.deleteArcs doomed).Run s arcs t ↔ f.Run s arcs t ∧ ∀ a ∈ arcs, doomed a = false := by
  constructor
  · intro h
    induction h with
    | nil => exact ⟨.nil _, by simp⟩
    | cons leaves _ ih =>
      rw [arcsFrom_deleteArcs, List.mem_filter] at leaves
      exact ⟨.cons leaves.1 ih.1, by simpa using ⟨by simpa using leaves.2, ih.2⟩⟩
  · rintro ⟨hrun, hall⟩
    induction hrun with
    | nil => exact .nil _
    | @cons s t a arcs leaves _ ih =>
      obtain ⟨hspared, hrest⟩ := List.forall_mem_cons.1 hall
      refine .cons ?_ (ih hrest)
      rw [arcsFrom_deleteArcs]
      exact List.mem_filter.2 ⟨leaves, by simp [hspared]⟩

theorem Run.source_lt_size (h : f.Run s arcs t) (ht : f.IsFinal t) : s < f.size := by
  cases h with
  | nil => exact ht.lt_size
  | cons leaves _ => exact lt_size_of_mem_arcsFrom leaves

theorem Useful.lt_size (h : f.Useful s) : s < f.size := by
  obtain ⟨-, t, ⟨arcs, hrun⟩, ht⟩ := h
  exact hrun.source_lt_size ht

/-- Leading doomed arcs to a sink makes the same states useful as deleting them. -/
theorem useful_sinkArcs_iff :
    (f.sinkArcs doomed).Useful s ↔ (f.deleteArcs doomed).Useful s := by
  have hfinal : ∀ t, (f.deleteArcs doomed).IsFinal t ↔ f.IsFinal t :=
    fun t => isFinal_congr (final?_deleteArcs f doomed t)
  constructor
  · rintro ⟨⟨start, hstart, xs, hxs⟩, t, ⟨ys, hys⟩, ht⟩
    have ht' := isFinal_sinkArcs_iff.1 ht
    have hafter := (run_sinkArcs_iff ht'.lt_size).1 hys
    have hbefore := (run_sinkArcs_iff (hafter.1.source_lt_size ht')).1 hxs
    exact ⟨⟨start, hstart, xs, run_deleteArcs_iff.2 hbefore⟩, t,
      ⟨ys, run_deleteArcs_iff.2 hafter⟩, (hfinal t).2 ht'⟩
  · rintro ⟨⟨start, hstart, xs, hxs⟩, t, ⟨ys, hys⟩, ht⟩
    have ht' := (hfinal t).1 ht
    have hbefore := run_deleteArcs_iff.1 hxs
    have hafter := run_deleteArcs_iff.1 hys
    exact ⟨⟨start, hstart, xs, (run_sinkArcs_iff (hafter.1.source_lt_size ht')).2 hbefore⟩, t,
      ⟨ys, (run_sinkArcs_iff ht'.lt_size).2 hafter⟩, isFinal_sinkArcs_iff.2 ht'⟩

theorem final?_sinkArcs (hs : s < f.size) : (f.sinkArcs doomed).final? s = f.final? s := by
  have hold : ∀ g : Network, s < g.size → g.addState.final? s = g.final? s := by
    intro g hg
    rw [final?, addState, Array.getElem?_push_lt hg, final?, Array.getElem?_eq_getElem hg]
  rw [sinkArcs, hold _ (by simpa using hs), final?_mapArcs]

theorem keptArcs_cons (a : Arc) (arcs : List Arc) :
    keptArcs keep (a :: arcs) =
      if keep.getD a.target false then a.moveTarget (rank keep) :: keptArcs keep arcs
      else keptArcs keep arcs := by
  rw [keptArcs, List.filter_cons]
  split <;> rfl

/-- An arc to a sink that is not kept is lost as if it had been deleted. -/
theorem keptArcs_sunk {sink : StateId} (hsink : keep.getD sink false = false) (arcs : List Arc) :
    keptArcs keep (arcs.map fun a => if doomed a then { a with target := sink } else a) =
      keptArcs keep (arcs.filter fun a => !doomed a) := by
  induction arcs with
  | nil => rfl
  | cons a arcs ih =>
    rw [List.map_cons, keptArcs_cons, ih, List.filter_cons]
    cases ha : doomed a with
    | true => simp only [↓reduceIte, hsink, Bool.false_eq_true, Bool.not_true]
    | false => simp only [Bool.false_eq_true, ↓reduceIte, Bool.not_false, keptArcs_cons]

/-- Pruning deletes the doomed arcs and trims. -/
theorem pruneArcs_network_eq_trim (hf : f.WellFormed) (doomed : Arc → Bool) :
    (f.pruneArcs doomed).network = (f.deleteArcs doomed).trim.network := by
  have hold : ∀ s, (f.sinkArcs doomed).Useful s → s < f.size := by
    intro s hs
    simpa using (useful_sinkArcs_iff.1 hs).lt_size
  rw [pruneArcs_network hf]
  apply Alike.eq
  apply alike_trim (hf.sinkArcs doomed) (hf.deleteArcs doomed) rfl (fun _ => useful_sinkArcs_iff)
    rfl
  · intro s hs
    rw [final?_sinkArcs (hold s hs), final?_deleteArcs]
  · intro keep hmark s
    have hsink : keep.getD f.size false = false := by
      rw [Bool.eq_false_iff, Ne, getD_keep_iff, hmark]
      exact fun hs => Nat.lt_irrefl f.size (hold f.size hs)
    rw [arcsFrom_sinkArcs, arcsFrom_deleteArcs]
    exact keptArcs_sunk hsink _

theorem SameUpToOrder.pruneArcs (h : f.SameUpToOrder g) (hf : f.WellFormed) (doomed : Arc → Bool) :
    (f.pruneArcs doomed).network.SameUpToOrder (g.pruneArcs doomed).network := by
  rw [pruneArcs_network_eq_trim hf, pruneArcs_network_eq_trim (h.wellFormed hf)]
  have hdelete : (f.deleteArcs doomed).SameUpToOrder (g.deleteArcs doomed) := by
    constructor
    · exact h.start_eq
    · simpa using h.size_eq
    · simpa using h.final?_eq
    · intro s
      simpa using (h.arcs_related s).filter _
  exact hdelete.trim (hf.deleteArcs doomed)

end Network

end WildcardNet
