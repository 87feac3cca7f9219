import Mathlib.Data.List.Basic
import WildcardNet.Network.Run
import WildcardNet.Network.Stage
/-!
# What edits leave at a state

A network is looked at state by state: which arcs leave a state, and what its final weight is. Every
edit of a network is described by what it does to these two, so that later proofs need not know how
states are stored.
-/

namespace WildcardNet

/-! ### Lists that are worked through -/

section

variable {α β γ : Type} {next : β → Option γ} {before : α → β} {after : α → γ} {xs : List α}

theorem mapM_map_eq_some (h : ∀ x ∈ xs, next (before x) = some (after x)) :
    (xs.map before).mapM next = some (xs.map after) := by
  induction xs with
  | nil => rfl
  | cons x xs ih =>
    obtain ⟨hx, hxs⟩ := List.forall_mem_cons.1 h
    rw [List.map_cons, List.mapM_cons, hx, ih hxs]
    rfl

theorem mapM_eq_some {xs : List β} {after : β → γ} (h : ∀ x ∈ xs, next x = some (after x)) :
    xs.mapM next = some (xs.map after) := by
  have hmap : (xs.map id).mapM next = some (xs.map after) := mapM_map_eq_some h
  rwa [List.map_id] at hmap

end

namespace Outcome

variable {ε α β : Type} {o : Outcome ε α} {a : α}

theorem andThen_network_of_ok (h : o.result = .ok a) (next : Network → α → Outcome ε β) :
    (o.andThen next).network = (next o.network a).network := by
  simp [andThen, h]

theorem andThen_result_of_ok (h : o.result = .ok a) (next : Network → α → Outcome ε β) :
    (o.andThen next).result = (next o.network a).result := by
  simp [andThen, h]

end Outcome

namespace Network

variable {f : Network} {s : StateId} {a : Arc}

/-! ### Arcs and final weights of a state -/

theorem arcsFrom_of_getElem? {st : State} (h : f.states[s]? = some st) :
    f.arcsFrom s = st.arcs := by
  simp [arcsFrom, arcs?, h]

theorem arcs?_eq_some (hs : s < f.size) : f.arcs? s = some (f.arcsFrom s) := by
  have hst : f.states[s]? = some f.states[s] := Array.getElem?_eq_getElem hs
  simp [arcs?, arcsFrom, hst]

theorem arcsFrom_of_size_le (hs : f.size ≤ s) : f.arcsFrom s = [] := by
  have hnone : f.states[s]? = none := Array.getElem?_eq_none hs
  simp [arcsFrom, arcs?, hnone]

theorem final?_of_size_le (hs : f.size ≤ s) : f.final? s = none := by
  rw [final?, Array.getElem?_eq_none hs, Option.map_none]

theorem lt_size_of_mem_arcsFrom (ha : a ∈ f.arcsFrom s) : s < f.size := by
  rcases Nat.lt_or_ge s f.size with hs | hs
  · exact hs
  · simp [arcsFrom_of_size_le hs] at ha

/-- A property of all arcs can be checked state by state. -/
theorem forall_arc_iff {p : Arc → Prop} :
    (∀ st ∈ f.states, ∀ a ∈ st.arcs, p a) ↔ ∀ s, ∀ a ∈ f.arcsFrom s, p a := by
  constructor
  · intro h s a ha
    have hs := lt_size_of_mem_arcsFrom ha
    have hst : f.states[s]? = some f.states[s] := Array.getElem?_eq_getElem hs
    rw [arcsFrom_of_getElem? hst] at ha
    exact h _ (Array.getElem_mem hs) a ha
  · intro h st hst a ha
    obtain ⟨s, hs⟩ := Array.mem_iff_getElem?.1 hst
    refine h s a ?_
    rwa [arcsFrom_of_getElem? hs]

theorem WellFormed.target_lt (hf : f.WellFormed) (ha : a ∈ f.arcsFrom s) : a.target < f.size :=
  forall_arc_iff.1 hf.2 s a ha

theorem wellFormed_of_arcsFrom (hstart : ∀ s ∈ f.start, s < f.size)
    (harcs : ∀ s, ∀ a ∈ f.arcsFrom s, a.target < f.size) : f.WellFormed :=
  ⟨hstart, forall_arc_iff.2 harcs⟩

theorem isFinal_iff : f.IsFinal s ↔ ∃ w, f.final? s = some w ∧ w.isZero = false := by
  simp only [IsFinal, final?, State.isFinal, Option.map_eq_some_iff]
  constructor
  · rintro ⟨st, hst, hfinal⟩
    exact ⟨st.final, ⟨st, hst, rfl⟩, by simpa using hfinal⟩
  · rintro ⟨w, ⟨st, hst, rfl⟩, hfinal⟩
    exact ⟨st, hst, by simpa using hfinal⟩

theorem IsFinal.lt_size (h : f.IsFinal s) : s < f.size := by
  obtain ⟨st, hst, _⟩ := h
  exact (Array.getElem?_eq_some_iff.1 hst).1

theorem isFinal_congr {g : Network} {t : StateId} (h : g.final? t = f.final? s) :
    g.IsFinal t ↔ f.IsFinal s := by
  rw [isFinal_iff, isFinal_iff, h]

/-- A network is determined by its start, its final weights and its arcs. -/
theorem eq_of_final?_of_arcsFrom {g : Network} (hstart : g.start = f.start)
    (hsize : g.size = f.size) (hfinal : ∀ s < f.size, g.final? s = f.final? s)
    (harcs : ∀ s, g.arcsFrom s = f.arcsFrom s) : g = f := by
  obtain ⟨gstates, gstart⟩ := g
  obtain ⟨fstates, fstart⟩ := f
  obtain rfl : gstart = fstart := hstart
  congr 1
  apply Array.ext hsize
  intro s hs hs'
  have hweight := hfinal s hs'
  have harcs := harcs s
  simp only [final?, arcsFrom, arcs?, Array.getElem?_eq_getElem hs, Array.getElem?_eq_getElem hs',
    Option.map_some, Option.some.injEq, Option.getD_some] at hweight harcs
  exact State.mk.injEq .. ▸ ⟨hweight, harcs⟩

/-! ### Edits in place -/

@[simp] theorem arcsFrom_mapArcs (f : Network) (g : Arc → Arc) (s : StateId) :
    (f.mapArcs g).arcsFrom s = (f.arcsFrom s).map g := by
  rw [arcsFrom, arcs?_mapArcs, arcsFrom]
  cases f.arcs? s <;> rfl

@[simp] theorem final?_mapArcs (f : Network) (g : Arc → Arc) (s : StateId) :
    (f.mapArcs g).final? s = f.final? s := by
  simp [mapArcs, final?, Option.map_map, Function.comp_def]

@[simp] theorem size_sortArcs (f : Network) : f.sortArcs.size = f.size := by
  simp [sortArcs, size]

@[simp] theorem start_sortArcs (f : Network) : f.sortArcs.start = f.start := rfl

@[simp] theorem arcsFrom_sortArcs (f : Network) (s : StateId) :
    f.sortArcs.arcsFrom s = (f.arcsFrom s).mergeSort arcLe := by
  cases h : f.states[s]? <;> simp [sortArcs, arcsFrom, arcs?, h]

@[simp] theorem final?_sortArcs (f : Network) (s : StateId) :
    f.sortArcs.final? s = f.final? s := by
  simp [sortArcs, final?, Option.map_map, Function.comp_def]

theorem WellFormed.sortArcs (hf : f.WellFormed) : f.sortArcs.WellFormed := by
  refine wellFormed_of_arcsFrom (by simpa using hf.1) ?_
  intro s a ha
  rw [arcsFrom_sortArcs, List.mem_mergeSort] at ha
  simpa using hf.target_lt ha

/-! ### A new state -/

@[simp] theorem size_addState (f : Network) : f.addState.size = f.size + 1 := by
  simp [addState, size]

@[simp] theorem start_addState (f : Network) : f.addState.start = f.start := rfl

@[simp] theorem arcsFrom_addState (f : Network) (s : StateId) :
    f.addState.arcsFrom s = f.arcsFrom s := by
  simp only [addState, arcsFrom, arcs?, Array.getElem?_push]
  split
  · next h => simp [h]
  · rfl

theorem isFinal_addState_iff : f.addState.IsFinal s ↔ f.IsFinal s := by
  rw [isFinal_iff, isFinal_iff]
  simp only [addState, final?, Array.getElem?_push]
  split
  · next h => simp [h, Weight.isZero]
  · rfl

/-! ### Arcs with their sources -/

theorem mem_placedArcs_iff {p : PlacedArc} : p ∈ f.placedArcs ↔ p.arc ∈ f.arcsFrom p.source := by
  simp only [placedArcs, List.mem_flatMap, List.mem_map, Prod.exists, List.mem_zipIdx_iff_getElem?,
    Array.getElem?_toList]
  constructor
  · rintro ⟨st, s, hst, a, ha, rfl⟩
    rwa [arcsFrom_of_getElem? hst]
  · intro hp
    have hs := lt_size_of_mem_arcsFrom hp
    have hst : f.states[p.source]? = some f.states[p.source] := Array.getElem?_eq_getElem hs
    exact ⟨_, _, hst, p.arc, by rwa [arcsFrom_of_getElem? hst] at hp, rfl⟩

/-- The arcs that leave a state, picked from those of a list of states numbered from `n` on. -/
theorem filter_source_flatMap_zipIdx (sts : List State) (n s : Nat) :
    ((sts.zipIdx n).flatMap fun (st, k) => st.arcs.map fun a => PlacedArc.mk k a).filter
        (fun p => p.source == s) =
      if n ≤ s then ((sts[s - n]?.map State.arcs).getD []).map (PlacedArc.mk s) else [] := by
  induction sts generalizing n with
  | nil => simp
  | cons st sts ih =>
    rw [List.zipIdx_cons, List.flatMap_cons, List.filter_append, ih, List.filter_map]
    rcases Nat.lt_trichotomy s n with h | rfl | h
    · have hne : ¬ n = s := by omega
      have hle : ¬ n ≤ s ∧ ¬ n + 1 ≤ s := by omega
      simp [Function.comp_def, hne, hle]
    · have hle : ¬ s + 1 ≤ s := by omega
      simp [Function.comp_def, hle]
    · have hne : ¬ n = s := by omega
      have hle : n ≤ s ∧ n + 1 ≤ s := by omega
      have hsub : s - n = s - (n + 1) + 1 := by omega
      simp [Function.comp_def, hne, hle, hsub]

theorem filter_source_placedArcs (f : Network) (s : StateId) :
    f.placedArcs.filter (fun p => p.source == s) = (f.arcsFrom s).map (PlacedArc.mk s) := by
  have h := filter_source_flatMap_zipIdx f.states.toList 0 s
  simpa [placedArcs, arcsFrom, arcs?] using h

/-- Arcs derived from the arcs of a network, each with the same source as the one it comes from,
are derived state by state. -/
theorem filter_source_flatMap_placedArcs (f : Network) (g : PlacedArc → List Arc) (s : StateId) :
    ((f.placedArcs.flatMap fun p => (g p).map (PlacedArc.mk p.source)).filter
        fun p => p.source == s).map PlacedArc.arc =
      (f.arcsFrom s).flatMap fun a => g ⟨s, a⟩ := by
  have hpick : ∀ ps : List PlacedArc,
      ((ps.flatMap fun p => (g p).map (PlacedArc.mk p.source)).filter
          fun p => p.source == s).map PlacedArc.arc =
        (ps.filter fun p => p.source == s).flatMap g := by
    intro ps
    induction ps with
    | nil => rfl
    | cons p ps ih =>
      rw [List.flatMap_cons, List.filter_append, List.map_append, ih]
      by_cases hp : p.source = s <;> simp [List.filter_map, Function.comp_def, hp]
  rw [hpick, filter_source_placedArcs, List.flatMap_map]

/-! ### Staged arcs -/

/-- Both ends of the arc exist. -/
def admits (f : Network) (a : PlacedArc) : Bool := a.source < f.size && a.arc.target < f.size

/-- Appends to every state the given arcs that leave it. -/
def appendArcs (f : Network) (arcs : List PlacedArc) : Network :=
  { f with states := f.states.mapIdx fun s st =>
      { st with arcs := st.arcs ++ (arcs.filter fun a => a.source == s).map PlacedArc.arc } }

/-- The state that an arc names and the network does not have, its source before its target. -/
def missingState (f : Network) (a : PlacedArc) : StateId :=
  if a.source < f.size then a.arc.target else a.source

@[simp] theorem size_appendArcs (f : Network) (arcs : List PlacedArc) :
    (f.appendArcs arcs).size = f.size := by
  simp [appendArcs, size]

@[simp] theorem start_appendArcs (f : Network) (arcs : List PlacedArc) :
    (f.appendArcs arcs).start = f.start := rfl

@[simp] theorem final?_appendArcs (f : Network) (arcs : List PlacedArc) (s : StateId) :
    (f.appendArcs arcs).final? s = f.final? s := by
  simp [appendArcs, final?, Option.map_map, Function.comp_def]

theorem appendArcs_nil (f : Network) : f.appendArcs [] = f := by
  have hstates : f.states.mapIdx (fun _ st => { st with arcs := st.arcs ++ [] }) = f.states := by
    apply Array.ext_getElem?
    intro s
    cases h : f.states[s]? <;> simp [h]
  simp only [appendArcs, List.filter_nil, List.map_nil, hstates]

theorem appendArcs_append (f : Network) (arcs more : List PlacedArc) :
    f.appendArcs (arcs ++ more) = (f.appendArcs arcs).appendArcs more := by
  simp only [appendArcs, mk.injEq, and_true]
  apply Array.ext_getElem?
  intro s
  cases h : f.states[s]? <;> simp [h]

theorem arcsFrom_appendArcs {arcs : List PlacedArc} (hs : s < f.size) :
    (f.appendArcs arcs).arcsFrom s =
      f.arcsFrom s ++ (arcs.filter fun p => p.source == s).map PlacedArc.arc := by
  have hst : f.states[s]? = some f.states[s] := Array.getElem?_eq_getElem hs
  simp [appendArcs, arcsFrom, arcs?, hst]

theorem admits_iff {p : PlacedArc} :
    f.admits p = true ↔ p.source < f.size ∧ p.arc.target < f.size := by
  simp [admits]

theorem admits_appendArcs (f : Network) (arcs : List PlacedArc) (p : PlacedArc) :
    (f.appendArcs arcs).admits p = f.admits p := by
  simp [admits]

theorem mem_arcsFrom_appendArcs {arcs : List PlacedArc} (h : ∀ p ∈ arcs, f.admits p = true) :
    a ∈ (f.appendArcs arcs).arcsFrom s ↔ a ∈ f.arcsFrom s ∨ ⟨s, a⟩ ∈ arcs := by
  rcases Nat.lt_or_ge s f.size with hs | hs
  · rw [arcsFrom_appendArcs hs, List.mem_append]
    refine or_congr_right ?_
    simp only [List.mem_map, List.mem_filter, beq_iff_eq]
    constructor
    · rintro ⟨p, ⟨hp, rfl⟩, rfl⟩
      exact hp
    · intro hp
      exact ⟨_, ⟨hp, rfl⟩, rfl⟩
  · have hnone : ⟨s, a⟩ ∉ arcs := fun hp => absurd (admits_iff.1 (h _ hp)).1 (Nat.not_lt.2 hs)
    rw [arcsFrom_of_size_le hs, arcsFrom_of_size_le (by simpa using hs)]
    simp [hnone]

theorem WellFormed.appendArcs (hf : f.WellFormed) {arcs : List PlacedArc}
    (h : ∀ p ∈ arcs, f.admits p = true) : (f.appendArcs arcs).WellFormed := by
  refine wellFormed_of_arcsFrom (by simpa using hf.1) ?_
  intro s a ha
  rw [size_appendArcs]
  rcases (mem_arcsFrom_appendArcs h).1 ha with ha | ha
  · exact hf.target_lt ha
  · exact (admits_iff.1 (h _ ha)).2

theorem addArc_eq_appendArcs {p : PlacedArc} (h : f.admits p = true) :
    f.addArc p = .ok (f.appendArcs [p]) := by
  have happend : { f with states := f.states.modify p.source fun st =>
      { st with arcs := st.arcs ++ [p.arc] } } = f.appendArcs [p] := by
    simp only [appendArcs, mk.injEq, and_true]
    apply Array.ext_getElem?
    intro s
    rw [Array.getElem?_modify, Array.getElem?_mapIdx]
    by_cases hs : p.source = s
    · simp [hs]
    · cases f.states[s]? <;> simp [hs]
  obtain ⟨hsource, htarget⟩ := admits_iff.1 h
  simp [addArc, checkState, hsource, htarget, happend, bind, Except.bind, pure, Except.pure]

theorem addArc_eq_error {p : PlacedArc} (h : f.admits p = false) :
    f.addArc p = .error (.noSuchState (f.missingState p) f.size) := by
  by_cases hsource : p.source < f.size
  · have htarget : ¬ p.arc.target < f.size := by simpa [admits, hsource] using h
    simp [addArc, checkState, missingState, hsource, htarget, bind, Except.bind]
  · simp [addArc, checkState, missingState, hsource, bind, Except.bind]

/-- Staged arcs that fit are in the network when those behind them are looked at. -/
theorem addStaged_append {staged : List PlacedArc} (h : ∀ p ∈ staged, f.admits p = true)
    (more : List PlacedArc) :
    f.addStaged (staged ++ more) = (f.appendArcs staged).addStaged more := by
  induction staged generalizing f with
  | nil => rw [List.nil_append, appendArcs_nil]
  | cons p staged ih =>
    obtain ⟨hp, hstaged⟩ := List.forall_mem_cons.1 h
    -- the network keeps its size, so the arcs behind `p` still fit
    have hrest : ∀ q ∈ staged, (f.appendArcs [p]).admits q = true := by
      intro q hq
      rw [admits_appendArcs]
      exact hstaged q hq
    rw [List.cons_append, addStaged, addArc_eq_appendArcs hp]
    dsimp only
    rw [ih hrest, ← appendArcs_append, List.singleton_append]

theorem applyStage_of_admits {staged : List PlacedArc} (h : ∀ p ∈ staged, f.admits p = true) :
    f.applyStage staged = ([], ⟨f.appendArcs staged, [], .ok staged.length⟩) := by
  have hadded : f.addStaged staged = ([], ⟨f.appendArcs staged, [], .ok ()⟩) := by
    simpa [addStaged] using addStaged_append h []
  rw [applyStage, hadded]
  rfl

theorem insertStaged_of_admits {staged : List PlacedArc} (h : ∀ p ∈ staged, f.admits p = true) :
    f.insertStaged staged = ⟨f.appendArcs staged, [], .ok staged.length⟩ := by
  rw [insertStaged, applyStage_of_admits h]

theorem insertStaged_network {staged : List PlacedArc} (h : ∀ p ∈ staged, f.admits p = true) :
    (f.insertStaged staged).network = f.appendArcs staged := by
  rw [insertStaged_of_admits h]

theorem insertStaged_result {staged : List PlacedArc} (h : ∀ p ∈ staged, f.admits p = true) :
    (f.insertStaged staged).result = .ok staged.length := by
  rw [insertStaged_of_admits h]

end Network

end WildcardNet
