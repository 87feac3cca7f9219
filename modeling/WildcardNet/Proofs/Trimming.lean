import WildcardNet.Proofs.Marking
import WildcardNet.Proofs.Runs
/-!
# Trimming and pruning keep successful runs

Trimming numbers the useful states anew. A run from the start to a final state uses useful states
only, so the successful runs of a trimmed network are those of the network, with the targets of
their arcs renumbered. Pruning loses exactly the successful runs that take a doomed arc.
-/

namespace WildcardNet

/-- The arc with its target renumbered. -/
def Arc.moveTarget (number : StateId → StateId) (a : Arc) : Arc :=
  { a with target := number a.target }

/-! ### Numbers of kept places -/

/-- The number of a kept place: as many places before it are kept. -/
def rank (keep : Array Bool) (s : Nat) : Nat := (keep.toList.take s).count true

theorem getElem?_numberFrom (keep : List Bool) (next s : Nat) :
    (numberFrom next keep)[s]? =
      keep[s]?.map fun kept => if kept then some (next + (keep.take s).count true) else none := by
  induction keep generalizing next s with
  | nil => simp [numberFrom]
  | cons kept keep ih =>
    cases s with
    | zero => cases kept <;> simp [numberFrom]
    | succ s =>
      cases kept
      · simp [numberFrom, ih]
      · simp [numberFrom, ih, Nat.add_assoc, Nat.add_comm 1]

theorem getElem?_numbering {keep : Array Bool} {s : Nat} (hs : s < keep.size) :
    (numbering keep)[s]? = some (if keep[s] then some (rank keep s) else none) := by
  simp [numbering, getElem?_numberFrom, rank, hs]

variable {α β : Type}

/-- Kept items stand where their number says. -/
theorem getElem?_filterMap_kept (g : α → β) {items : List (α × Bool)} {s : Nat} {x : α}
    (h : items[s]? = some (x, true)) :
    (items.filterMap fun (x, kept) => if kept then some (g x) else none)[
      ((items.map Prod.snd).take s).count true]? = some (g x) := by
  induction items generalizing s with
  | nil => simp at h
  | cons item items ih =>
    obtain ⟨y, kept⟩ := item
    cases s with
    | zero =>
      obtain ⟨rfl, rfl⟩ : y = x ∧ kept = true := by simpa using h
      simp
    | succ s =>
      have hrest := ih (by simpa using h)
      cases kept
      · simpa using hrest
      · simpa using hrest

/-- Every item that is left was kept. -/
theorem exists_of_getElem?_filterMap_kept (g : α → β) {items : List (α × Bool)} {k : Nat} {y : β}
    (h : (items.filterMap fun (x, kept) => if kept then some (g x) else none)[k]? = some y) :
    ∃ s x, items[s]? = some (x, true) ∧ k = ((items.map Prod.snd).take s).count true ∧ y = g x := by
  induction items generalizing k with
  | nil => simp at h
  | cons item items ih =>
    obtain ⟨x, kept⟩ := item
    cases kept with
    | false =>
      obtain ⟨s, z, hz, hk, hy⟩ := ih (by simpa using h)
      exact ⟨s + 1, z, by simpa using hz, by simpa using hk, hy⟩
    | true =>
      cases k with
      | zero =>
        have hy : g x = y := by simpa using h
        exact ⟨0, x, rfl, rfl, hy.symm⟩
      | succ k =>
        obtain ⟨s, z, hz, hk, hy⟩ := ih (by simpa using h)
        exact ⟨s + 1, z, by simpa using hz, by simp [hk], hy⟩

namespace Network

variable {f : Network} {keep : Array Bool} {s t : StateId} {arcs : List Arc}

theorem getD_keep_iff : keep.getD s false = true ↔ keep[s]? = some true := by
  rw [Array.getD_eq_getD_getElem?]
  cases keep[s]? <;> simp

/-! ### The kept part of a network -/

/-- Arcs to kept states stay, renumbered. -/
def keptArcs (keep : Array Bool) (arcs : List Arc) : List Arc :=
  (arcs.filter fun a => keep.getD a.target false).map (Arc.moveTarget (rank keep))

def keptState (keep : Array Bool) (st : State) : State :=
  { st with arcs := keptArcs keep st.arcs }

theorem mem_keptArcs_iff {b : Arc} :
    b ∈ keptArcs keep arcs ↔
      ∃ a ∈ arcs, keep[a.target]? = some true ∧ a.moveTarget (rank keep) = b := by
  simp only [keptArcs, List.mem_map, List.mem_filter, getD_keep_iff, and_assoc]

theorem moveArcs?_numbering (h : ∀ a ∈ arcs, a.target < keep.size) :
    moveArcs? (numbering keep) arcs = some (keptArcs keep arcs) := by
  induction arcs with
  | nil => rfl
  | cons a arcs ih =>
    obtain ⟨ha, harcs⟩ := List.forall_mem_cons.1 h
    rw [moveArcs?, getElem?_numbering ha, ih harcs, keptArcs, keptArcs, List.filter_cons]
    cases hmark : keep[a.target] <;> simp [ha, hmark, Arc.moveTarget]

/-- The marked states, with the arcs between them. -/
def keptStates (keep : Array Bool) (items : List (State × Bool)) : List State :=
  items.filterMap fun (st, kept) => if kept then some (keptState keep st) else none

/-- The part of a network that is kept, with new numbers. -/
def restrict (f : Network) (keep : Array Bool) : Network where
  states := (keptStates keep (f.states.zip keep).toList).toArray
  start := f.start.map (rank keep)

/-- As long as the marks go as far as the states and the targets of arcs, nothing is lost. -/
theorem keepStates_numbering {s : Nat} {sts : List State} (hlength : s + sts.length ≤ keep.size)
    (h : ∀ st ∈ sts, ∀ a ∈ st.arcs, a.target < keep.size) (g : Network) :
    keepStates (numbering keep) g s sts =
      ⟨{ g with states := g.states ++ keptStates keep (sts.zip (keep.toList.drop s)) }, [],
        .ok ()⟩ := by
  induction sts generalizing g s with
  | nil => simp [keepStates, keptStates]
  | cons st sts ih =>
    obtain ⟨hst, hsts⟩ := List.forall_mem_cons.1 h
    rw [List.length_cons] at hlength
    have hs : s < keep.size := by omega
    have hrest := ih (s := s + 1) (by omega) hsts
    have hdrop : keep.toList.drop s = keep[s] :: keep.toList.drop (s + 1) :=
      List.drop_eq_getElem_cons hs
    rw [keepStates, getElem?_numbering hs, hdrop]
    cases hmark : keep[s] with
    | true => simp [moveArcs?_numbering hst, hrest, keptStates, keptState]
    | false => simp [hrest, keptStates]

theorem keepStates_eq_restrict (hsize : keep.size = f.size)
    (h : ∀ s, ∀ a ∈ f.arcsFrom s, a.target < f.size) (start : Option StateId) :
    keepStates (numbering keep) ⟨#[], start⟩ 0 f.states.toList =
      ⟨⟨(f.restrict keep).states, start⟩, [], .ok ()⟩ := by
  have htargets : ∀ st ∈ f.states.toList, ∀ a ∈ st.arcs, a.target < keep.size := by
    simpa [hsize] using forall_arc_iff.2 h
  rw [keepStates_numbering (by simp [hsize, size]) htargets]
  simp [restrict]

theorem map_snd_zip_states (hsize : keep.size = f.size) :
    (f.states.zip keep).toList.map Prod.snd = keep.toList := by
  rw [Array.toList_zip]
  exact List.map_snd_zip (by simpa [size] using hsize.le)

theorem getElem?_restrict (hsize : keep.size = f.size) (hs : keep[s]? = some true) {st : State}
    (hst : f.states[s]? = some st) :
    (f.restrict keep).states[rank keep s]? = some (keptState keep st) := by
  have hitem : (f.states.zip keep).toList[s]? = some (st, true) := by
    rw [Array.getElem?_toList, Array.getElem?_zip_eq_some]
    exact ⟨hst, hs⟩
  have h := getElem?_filterMap_kept (keptState keep) hitem
  rw [map_snd_zip_states hsize] at h
  rw [← Array.getElem?_toList, restrict, List.toList_toArray]
  exact h

theorem exists_of_getElem?_restrict (hsize : keep.size = f.size) {k : Nat} {st' : State}
    (h : (f.restrict keep).states[k]? = some st') :
    ∃ s, keep[s]? = some true ∧ k = rank keep s := by
  rw [← Array.getElem?_toList, restrict, List.toList_toArray] at h
  obtain ⟨s, st, hitem, hk, -⟩ := exists_of_getElem?_filterMap_kept (keptState keep) h
  rw [map_snd_zip_states hsize] at hk
  rw [Array.getElem?_toList, Array.getElem?_zip_eq_some] at hitem
  exact ⟨s, hitem.2, hk⟩

theorem arcsFrom_restrict (hsize : keep.size = f.size) (hs : keep[s]? = some true) :
    (f.restrict keep).arcsFrom (rank keep s) = keptArcs keep (f.arcsFrom s) := by
  have hlt : s < f.size := hsize ▸ (Array.getElem?_eq_some_iff.1 hs).1
  have hst : f.states[s]? = some f.states[s] := Array.getElem?_eq_getElem hlt
  rw [arcsFrom_of_getElem? (getElem?_restrict hsize hs hst), arcsFrom_of_getElem? hst, keptState]

theorem final?_restrict (hsize : keep.size = f.size) (hs : keep[s]? = some true) :
    (f.restrict keep).final? (rank keep s) = f.final? s := by
  have hlt : s < f.size := hsize ▸ (Array.getElem?_eq_some_iff.1 hs).1
  have hst : f.states[s]? = some f.states[s] := Array.getElem?_eq_getElem hlt
  simp [final?, getElem?_restrict hsize hs hst, hst, keptState]

theorem start_restrict {start : StateId} (hstart : f.start = some start) :
    (f.restrict keep).start = some (rank keep start) := by
  rw [restrict, hstart, Option.map_some]

/-- Runs of the kept part are the runs that stay in it. -/
theorem run_restrict_iff (hsize : keep.size = f.size) (hs : keep[s]? = some true)
    {arcs' : List Arc} {k : StateId} :
    (f.restrict keep).Run (rank keep s) arcs' k ↔
      ∃ arcs t, f.Run s arcs t ∧ keep[t]? = some true ∧ (∀ a ∈ arcs, keep[a.target]? = some true) ∧
        arcs' = arcs.map (Arc.moveTarget (rank keep)) ∧ k = rank keep t := by
  constructor
  · intro h
    induction arcs' generalizing s with
    | nil =>
      cases h
      exact ⟨[], s, .nil s, hs, by simp, rfl, rfl⟩
    | cons b arcs' ih =>
      cases h with
      | cons leaves rest =>
        rw [arcsFrom_restrict hsize hs] at leaves
        obtain ⟨a, ha, hkept, rfl⟩ := mem_keptArcs_iff.1 leaves
        obtain ⟨arcs, t, hrun, ht, hall, rfl, rfl⟩ := ih hkept rest
        refine ⟨a :: arcs, t, .cons ha hrun, ht, ?_, rfl, rfl⟩
        simpa using ⟨hkept, hall⟩
  · rintro ⟨arcs, t, hrun, ht, hall, rfl, rfl⟩
    induction hrun with
    | nil => exact .nil _
    | @cons s t a arcs leaves _ ih =>
      have hkept := hall a List.mem_cons_self
      have hleaves : a.moveTarget (rank keep) ∈ (f.restrict keep).arcsFrom (rank keep s) := by
        rw [arcsFrom_restrict hsize hs]
        exact mem_keptArcs_iff.2 ⟨a, leaves, hkept, rfl⟩
      exact .cons hleaves (ih hkept ht fun b hb => hall b (List.mem_cons_of_mem a hb))

/-! ### Trimming -/

theorem rank_eq_self (hall : ∀ b ∈ keep, b = true) (hs : s ≤ keep.size) : rank keep s = s := by
  have hcount : (keep.toList.take s).count true = (keep.toList.take s).length := by
    rw [List.count_eq_length]
    intro b hb
    exact (hall b (Array.mem_toList_iff.1 (List.mem_of_mem_take hb))).symm
  rw [rank, hcount, List.length_take, Array.length_toList, Nat.min_eq_left hs]

theorem keptArcs_eq_self (hall : ∀ b ∈ keep, b = true) {arcs : List Arc}
    (harcs : ∀ a ∈ arcs, a.target < keep.size) : keptArcs keep arcs = arcs := by
  have hin : ∀ a ∈ arcs, keep.getD a.target false = true := by
    intro a ha
    have hlt := harcs a ha
    exact getD_keep_iff.2 (by rw [Array.getElem?_eq_getElem hlt, hall _ (Array.getElem_mem hlt)])
  have hmove : ∀ a ∈ arcs, a.moveTarget (rank keep) = a := by
    intro a ha
    rw [Arc.moveTarget, rank_eq_self hall (Nat.le_of_lt (harcs a ha))]
  rw [keptArcs, List.filter_eq_self.2 hin, List.map_congr_left hmove, List.map_id']

/-- A network of which everything is kept stays as it is. -/
theorem restrict_eq_self (hf : f.WellFormed) (hsize : keep.size = f.size)
    (hall : ∀ b ∈ keep, b = true) : f.restrict keep = f := by
  have hkept : ∀ s < f.size, keep[s]? = some true := by
    intro s hs
    have hlt : s < keep.size := hsize ▸ hs
    rw [Array.getElem?_eq_getElem hlt, hall _ (Array.getElem_mem hlt)]
  have hrank : ∀ s < f.size, rank keep s = s := fun s hs => rank_eq_self hall (hsize ▸ hs.le)
  have hstates : (f.restrict keep).states = f.states := by
    apply Array.ext_getElem?
    intro k
    by_cases hk : k < f.size
    · have hst : f.states[k]? = some f.states[k] := Array.getElem?_eq_getElem hk
      have h := getElem?_restrict hsize (hkept k hk) hst
      rw [hrank k hk, keptState, keptArcs_eq_self hall (hsize ▸ hf.2 _ (Array.getElem_mem hk))] at h
      rw [h, hst]
    · rw [Array.getElem?_eq_none (Nat.le_of_not_lt hk)]
      cases hst : (f.restrict keep).states[k]? with
      | none => rfl
      | some st' =>
        obtain ⟨s, hs, rfl⟩ := exists_of_getElem?_restrict hsize hst
        have hlt : s < f.size := hsize ▸ (Array.getElem?_eq_some_iff.1 hs).1
        rw [hrank s hlt] at hk
        exact absurd hlt hk
  have hstart : (f.restrict keep).start = f.start := by
    cases h : f.start with
    | none => simp [restrict, h]
    | some start =>
      have hlt := hf.1 start h
      rw [start_restrict h, hrank start hlt]
  cases hres : f.restrict keep with
  | mk states start => simp_all

/-- In a well-formed network the search for useful states never breaks off. -/
theorem WellFormed.useful?_eq (hf : f.WellFormed) {start : StateId} (hstart : f.start = some start) :
    f.useful? start = some (f.useful start) :=
  useful?_eq_some_iff.2 ⟨hf.1 start hstart, fun _ _ => hf.target_lt, rfl⟩

/-- After the search there is an entry for every number that is looked for. -/
theorem trim_of_useful? {start : StateId} (hstart : f.start = some start)
    (hkeep : f.useful? start = some keep) :
    f.trim =
      if keep[start]? = some true then
        if keep.all id then ⟨f, [.nothingToTrim f.size], .ok ()⟩
        else ⟨f.restrict keep, [.trimmed f.size (keep.count true)], .ok ()⟩
      else ⟨{}, [.startDead f.size], .ok ()⟩ := by
  obtain ⟨hlt, harcs, rfl⟩ := useful?_eq_some_iff.1 hkeep
  have hsize := size_useful f start
  have hs : start < (f.useful start).size := hsize ▸ hlt
  have hkept : (f.useful start)[start]? = some (f.useful start)[start] :=
    Array.getElem?_eq_getElem hs
  simp only [trim, hstart, hkeep, getElem?_numbering hs, hkept, keepStates_eq_restrict hsize harcs]
  cases hmark : (f.useful start)[start] with
  | true => simp [Outcome.andThen, restrict, hstart]
  | false => simp

theorem trim_result_of_useful? {start : StateId} (hstart : f.start = some start)
    (hkeep : f.useful? start = some keep) : f.trim.result = .ok () := by
  rw [trim_of_useful? hstart hkeep]
  split
  · split <;> rfl
  · rfl

theorem trim_result (hf : f.WellFormed) : f.trim.result = .ok () := by
  cases hstart : f.start with
  | none => simp [trim, hstart]
  | some start => exact trim_result_of_useful? hstart (hf.useful?_eq hstart)

theorem trim_network_of_useful (hf : f.WellFormed) {start : StateId} (hstart : f.start = some start)
    (huseful : f.Useful start) : f.trim.network = f.restrict (f.useful start) := by
  have hkept := (getElem?_useful_iff hf hstart).2 huseful
  rw [trim_of_useful? hstart (hf.useful?_eq hstart), if_pos hkept]
  split
  · next hall =>
    refine (restrict_eq_self hf (size_useful f start) ?_).symm
    exact fun b hb => Array.all_eq_true'.1 hall b hb
  · rfl

theorem trim_network_of_not_useful (hf : f.WellFormed) {start : StateId}
    (hstart : f.start = some start) (huseful : ¬ f.Useful start) : f.trim.network = {} := by
  have hdead := mt (getElem?_useful_iff hf hstart).1 huseful
  rw [trim_of_useful? hstart (hf.useful?_eq hstart), if_neg hdead]

/-- A successful run only uses useful states, so nothing it needs is left out. -/
theorem succeeds_restrict_useful_iff (hf : f.WellFormed) {start : StateId}
    (hstart : f.start = some start) (huseful : f.Useful start) {arcs' : List Arc} :
    (f.restrict (f.useful start)).Succeeds arcs' ↔
      ∃ arcs, f.Succeeds arcs ∧ arcs' = arcs.map (Arc.moveTarget (rank (f.useful start))) := by
  have hmark : ∀ s, (f.useful start)[s]? = some true ↔ f.Useful s :=
    fun s => getElem?_useful_iff hf hstart
  have hkept := (hmark start).2 huseful
  simp only [Succeeds, start_restrict hstart, hstart, Option.mem_def, Option.some.injEq,
    exists_eq_left']
  constructor
  · rintro ⟨k, hrun, hfinal⟩
    obtain ⟨arcs, t, hrun', ht, -, rfl, rfl⟩ :=
      (run_restrict_iff (size_useful f start) hkept).1 hrun
    have hsame := final?_restrict (size_useful f start) ht
    exact ⟨arcs, ⟨t, hrun', (isFinal_congr hsame).1 hfinal⟩, rfl⟩
  · rintro ⟨arcs, ⟨t, hrun, hfinal⟩, rfl⟩
    obtain ⟨-, hall⟩ := hrun.useful hstart (Reaches.refl f start) hfinal
    have ht : f.Useful t := ⟨⟨start, hstart, arcs, hrun⟩, t, Reaches.refl f t, hfinal⟩
    have hsame := final?_restrict (size_useful f start) ((hmark t).2 ht)
    refine ⟨_, (run_restrict_iff (size_useful f start) hkept).2
      ⟨arcs, t, hrun, (hmark t).2 ht, fun a ha => (hmark _).2 (hall a ha), rfl, rfl⟩,
      (isFinal_congr hsame).2 hfinal⟩

/-- The successful runs of a trimmed network are those of the network, renumbered. -/
theorem exists_succeeds_trim_iff (hf : f.WellFormed) :
    ∃ number : StateId → StateId, ∀ arcs', f.trim.network.Succeeds arcs' ↔
      ∃ arcs, f.Succeeds arcs ∧ arcs' = arcs.map (Arc.moveTarget number) := by
  cases hstart : f.start with
  | none =>
    refine ⟨id, fun arcs' => ?_⟩
    simp [Succeeds, trim, hstart]
  | some start =>
    refine ⟨rank (f.useful start), fun arcs' => ?_⟩
    by_cases huseful : f.Useful start
    · rw [trim_network_of_useful hf hstart huseful]
      exact succeeds_restrict_useful_iff hf hstart huseful
    · -- A start that is not useful begins no successful run, and nothing is left of the network.
      rw [trim_network_of_not_useful hf hstart huseful]
      constructor
      · rintro ⟨start', hstart', -⟩
        simp at hstart'
      · rintro ⟨arcs, ⟨start', hstart', t, hrun, hfinal⟩, -⟩
        obtain rfl : start = start' := by simpa [hstart] using hstart'
        exact absurd (hrun.useful hstart' (Reaches.refl f start) hfinal).1 huseful

/-! ### Pruning -/

variable {doomed : Arc → Bool}

theorem arcsFrom_sinkArcs (f : Network) (doomed : Arc → Bool) (s : StateId) :
    (f.sinkArcs doomed).arcsFrom s =
      (f.arcsFrom s).map fun a => if doomed a then { a with target := f.size } else a := by
  rw [sinkArcs, arcsFrom_addState, arcsFrom_mapArcs]

theorem isFinal_sinkArcs_iff : (f.sinkArcs doomed).IsFinal s ↔ f.IsFinal s := by
  rw [sinkArcs, isFinal_addState_iff]
  exact isFinal_congr (final?_mapArcs ..)

theorem WellFormed.sinkArcs (hf : f.WellFormed) (doomed : Arc → Bool) :
    (f.sinkArcs doomed).WellFormed := by
  have hsize : (f.sinkArcs doomed).size = f.size + 1 := by simp [Network.sinkArcs]
  refine wellFormed_of_arcsFrom ?_ ?_
  · intro s hs
    rw [hsize]
    exact Nat.lt_succ_of_lt (hf.1 s hs)
  · intro s b hb
    rw [arcsFrom_sinkArcs] at hb
    obtain ⟨a, ha, rfl⟩ := List.mem_map.1 hb
    have hlt := hf.target_lt ha
    rw [hsize]
    split
    · exact Nat.lt_succ_self f.size
    · exact Nat.lt_succ_of_lt hlt

/-- A run that ends in an old state never gets to the sink, so it takes no doomed arc. -/
theorem run_sinkArcs_iff (ht : t < f.size) :
    (f.sinkArcs doomed).Run s arcs t ↔ f.Run s arcs t ∧ ∀ a ∈ arcs, doomed a = false := by
  have hsink : f.arcsFrom f.size = [] := arcsFrom_of_size_le (Nat.le_refl f.size)
  constructor
  · intro h
    induction h with
    | nil => exact ⟨.nil _, by simp⟩
    | @cons s t b arcs leaves rest ih =>
      obtain ⟨hrun, hall⟩ := ih ht
      rw [arcsFrom_sinkArcs] at leaves
      obtain ⟨a, ha, rfl⟩ := List.mem_map.1 leaves
      cases hdoomed : doomed a with
      | true =>
        simp only [hdoomed, ↓reduceIte] at hrun
        cases hrun with
        | nil => exact absurd ht (Nat.lt_irrefl _)
        | cons leaves' _ => simp [hsink] at leaves'
      | false =>
        simp only [hdoomed, Bool.false_eq_true, ↓reduceIte] at hrun ⊢
        exact ⟨.cons ha hrun, by simpa using ⟨hdoomed, hall⟩⟩
  · rintro ⟨hrun, hall⟩
    induction hrun with
    | nil => exact .nil _
    | @cons s t a arcs leaves _ ih =>
      have hspared := hall a List.mem_cons_self
      have hleaves : a ∈ (f.sinkArcs doomed).arcsFrom s := by
        rw [arcsFrom_sinkArcs]
        exact List.mem_map.2 ⟨a, leaves, by simp [hspared]⟩
      exact .cons hleaves (ih ht fun b hb => hall b (List.mem_cons_of_mem a hb))

theorem succeeds_sinkArcs_iff :
    (f.sinkArcs doomed).Succeeds arcs ↔ f.Succeeds arcs ∧ ∀ a ∈ arcs, doomed a = false := by
  constructor
  · rintro ⟨start, hstart, t, hrun, hfinal⟩
    have hfinal' := isFinal_sinkArcs_iff.1 hfinal
    obtain ⟨hrun', hall⟩ := (run_sinkArcs_iff hfinal'.lt_size).1 hrun
    exact ⟨⟨start, hstart, t, hrun', hfinal'⟩, hall⟩
  · rintro ⟨⟨start, hstart, t, hrun, hfinal⟩, hall⟩
    exact ⟨start, hstart, t, (run_sinkArcs_iff hfinal.lt_size).2 ⟨hrun, hall⟩,
      isFinal_sinkArcs_iff.2 hfinal⟩

theorem pruneArcs_result (hf : f.WellFormed) (doomed : Arc → Bool) :
    (f.pruneArcs doomed).result = .ok (f.countArcs doomed) := by
  rw [pruneArcs, Outcome.andThen_result_of_ok (trim_result (hf.sinkArcs doomed))]

/-- The successful runs of a pruned network are those of the network that take no doomed arc,
renumbered. -/
theorem exists_succeeds_pruneArcs_iff (hf : f.WellFormed) (doomed : Arc → Bool) :
    ∃ number : StateId → StateId, ∀ arcs', (f.pruneArcs doomed).network.Succeeds arcs' ↔
      ∃ arcs, f.Succeeds arcs ∧ (∀ a ∈ arcs, doomed a = false) ∧
        arcs' = arcs.map (Arc.moveTarget number) := by
  obtain ⟨number, h⟩ := exists_succeeds_trim_iff (hf.sinkArcs doomed)
  refine ⟨number, fun arcs' => ?_⟩
  rw [pruneArcs, Outcome.andThen_network_of_ok (trim_result (hf.sinkArcs doomed)), h]
  simp only [succeeds_sinkArcs_iff, and_assoc]

end Network

end WildcardNet
