import Mathlib.Data.List.Basic
import WildcardNet.Listing.Reader
import WildcardNet.Listing.Writer
import WildcardNet.Proofs.Edits
/-!
# The network that entries describe

The entries of a listing are looked at state by state. The arcs of a state are those of its arc
entries, in order, and its final weight is that of its last final entry. In the other direction a
network has entries of its own, the start first and the other states in order, and these describe
the arcs and final weights of the network again.
-/

namespace WildcardNet.Listing

/-! ### Entries state by state -/

namespace Entry

/-- The arc that an entry adds to a state. -/
def arcAt (s : StateId) : Entry → Option Arc
  | .final _ _ => none
  | .arc p => if p.source = s then some p.arc else none

/-- The final weight that an entry gives to a state. -/
def finalAt (s : StateId) : Entry → Option Weight
  | .final t w => if t = s then some w else none
  | .arc _ => none

theorem source_le_largestState (e : Entry) : e.source ≤ e.largestState := by
  cases e with
  | final t w => exact Nat.le_refl t
  | arc p => exact Nat.le_max_left _ _

theorem arcAt_eq_some_iff {e : Entry} {s : StateId} {a : Arc} :
    e.arcAt s = some a ↔ e = .arc ⟨s, a⟩ := by
  cases e with
  | final t w => simp [arcAt]
  | arc p =>
    obtain ⟨t, b⟩ := p
    simp [arcAt]

theorem finalAt_eq_some_iff {e : Entry} {s : StateId} {w : Weight} :
    e.finalAt s = some w ↔ e = .final s w := by
  cases e with
  | final t v => simp [finalAt]
  | arc p => simp [finalAt]

theorem arcAt_of_source_ne {e : Entry} {s : StateId} (h : e.source ≠ s) : e.arcAt s = none := by
  rw [Option.eq_none_iff_forall_ne_some]
  intro a ha
  rw [arcAt_eq_some_iff.1 ha] at h
  exact h rfl

theorem finalAt_of_source_ne {e : Entry} {s : StateId} (h : e.source ≠ s) :
    e.finalAt s = none := by
  rw [Option.eq_none_iff_forall_ne_some]
  intro w hw
  rw [finalAt_eq_some_iff.1 hw] at h
  exact h rfl

end Entry

/-- The number of times that the entries name a state. -/
def named : List Entry → Nat
  | [] => 0
  | e :: entries => e.references + named entries

/-- One more than the largest state that the entries name. -/
def stateBound (entries : List Entry) : Nat :=
  entries.foldl (fun n e => max n (e.largestState + 1)) 0

/-- No entry names a state larger than the number of times that the entries name one. -/
def Dense (entries : List Entry) : Prop := ∀ e ∈ entries, e.largestState ≤ named entries

/-- The network that the entries describe. -/
def describe (entries : List Entry) : Network where
  states := entries.foldl addEntry (Array.replicate (stateBound entries) {})
  start := entries.head?.map Entry.source

variable {entries : List Entry} {s : StateId} {a : Arc} {w : Weight}

theorem lt_foldl_max_iff (entries : List Entry) (n k : Nat) :
    k < entries.foldl (fun n e => max n (e.largestState + 1)) n ↔
      k < n ∨ ∃ e ∈ entries, k ≤ e.largestState := by
  induction entries generalizing n with
  | nil => simp
  | cons e entries ih =>
    have hmax : k < max n (e.largestState + 1) ↔ k < n ∨ k ≤ e.largestState := by omega
    rw [List.foldl_cons, ih, hmax, or_assoc]
    simp

theorem lt_stateBound_iff {k : Nat} :
    k < stateBound entries ↔ ∃ e ∈ entries, k ≤ e.largestState := by
  rw [stateBound, lt_foldl_max_iff]
  simp

/-! ### What the entries describe -/

theorem getElem?_addEntry (states : Array State) (e : Entry) (s : Nat) :
    (addEntry states e)[s]? = states[s]?.map fun st =>
      ⟨(e.finalAt s).getD st.final, st.arcs ++ (e.arcAt s).toList⟩ := by
  cases e with
  | final t w =>
    rw [addEntry, Array.getElem?_modify]
    by_cases h : t = s <;> cases states[s]? <;> simp [Entry.finalAt, Entry.arcAt, h]
  | arc p =>
    rw [addEntry, Array.getElem?_modify]
    by_cases h : p.source = s <;> cases states[s]? <;> simp [Entry.finalAt, Entry.arcAt, h]

/-- Adding the entries one by one leaves at a state its last final weight and all its arcs. -/
theorem getElem?_foldl_addEntry (entries : List Entry) (states : Array State) (s : Nat) :
    (entries.foldl addEntry states)[s]? = states[s]?.map fun st =>
      ⟨(entries.filterMap (Entry.finalAt s)).getLast?.getD st.final,
        st.arcs ++ entries.filterMap (Entry.arcAt s)⟩ := by
  induction entries generalizing states with
  | nil => simp
  | cons e entries ih =>
    rw [List.foldl_cons, ih, getElem?_addEntry, Option.map_map]
    congr 1
    funext st
    have hfinal : (entries.filterMap (Entry.finalAt s)).getLast?.getD
          ((e.finalAt s).getD st.final) =
        ((e :: entries).filterMap (Entry.finalAt s)).getLast?.getD st.final := by
      cases h : e.finalAt s with
      | none => simp [h]
      | some w => simp [h, List.getLast?_cons]
    have harcs : st.arcs ++ (e.arcAt s).toList ++ entries.filterMap (Entry.arcAt s) =
        st.arcs ++ (e :: entries).filterMap (Entry.arcAt s) := by
      cases h : e.arcAt s <;> simp [h]
    simp only [Function.comp_apply, hfinal, harcs]

theorem size_foldl_addEntry (entries : List Entry) (states : Array State) :
    (entries.foldl addEntry states).size = states.size := by
  induction entries generalizing states with
  | nil => rfl
  | cons e entries ih =>
    rw [List.foldl_cons, ih]
    cases e <;> simp [addEntry]

@[simp] theorem size_describe (entries : List Entry) :
    (describe entries).size = stateBound entries := by
  rw [describe, Network.size, size_foldl_addEntry, Array.size_replicate]

theorem getElem?_describe (hs : s < stateBound entries) :
    (describe entries).states[s]? =
      some ⟨(entries.filterMap (Entry.finalAt s)).getLast?.getD Weight.zero,
        entries.filterMap (Entry.arcAt s)⟩ := by
  rw [describe, getElem?_foldl_addEntry, Array.getElem?_replicate, if_pos hs]
  simp

theorem arcsFrom_describe (entries : List Entry) (s : StateId) :
    (describe entries).arcsFrom s = entries.filterMap (Entry.arcAt s) := by
  rcases Nat.lt_or_ge s (stateBound entries) with hs | hs
  · rw [Network.arcsFrom_of_getElem? (getElem?_describe hs)]
  · -- A state that no entry names has no arcs.
    rw [Network.arcsFrom_of_size_le (by simpa using hs), eq_comm, List.filterMap_eq_nil_iff]
    intro e he
    apply Entry.arcAt_of_source_ne
    rintro rfl
    exact Nat.not_lt.2 hs (lt_stateBound_iff.2 ⟨e, he, e.source_le_largestState⟩)

theorem final?_describe (hs : s < stateBound entries) :
    (describe entries).final? s =
      some ((entries.filterMap (Entry.finalAt s)).getLast?.getD Weight.zero) := by
  rw [Network.final?, getElem?_describe hs, Option.map_some]

theorem mem_arcsFrom_describe_iff :
    a ∈ (describe entries).arcsFrom s ↔ .arc ⟨s, a⟩ ∈ entries := by
  rw [arcsFrom_describe, List.mem_filterMap]
  simp only [Entry.arcAt_eq_some_iff, exists_eq_right]

theorem wellFormed_describe (entries : List Entry) : (describe entries).WellFormed := by
  apply Network.wellFormed_of_arcsFrom
  · intro s hs
    obtain ⟨e, he, rfl⟩ := Option.map_eq_some_iff.1 hs
    rw [size_describe]
    exact lt_stateBound_iff.2 ⟨e, List.mem_of_mem_head? he, e.source_le_largestState⟩
  · intro s a ha
    rw [size_describe]
    exact lt_stateBound_iff.2 ⟨_, mem_arcsFrom_describe_iff.1 ha, Nat.le_max_right _ _⟩

/-! ### The entries of a network -/

/-- The entry of a final state. -/
def finalEntries (f : Network) (s : StateId) : List Entry :=
  match f.final? s with
  | none => []
  | some w => if w.isZero then [] else [.final s w]

/-- The entries of a state: its arcs, and its final weight if it is final. -/
def entriesAt (f : Network) (s : StateId) : List Entry :=
  (f.arcsFrom s).map (fun a => .arc ⟨s, a⟩) ++ finalEntries f s

/-- The entries of a network, the start first. -/
def entriesOf (f : Network) : List Entry :=
  match f.start with
  | none => []
  | some start => (stateOrder f start).flatMap (entriesAt f)

variable {f : Network} {start : StateId} {e : Entry}

theorem mem_finalEntries_iff :
    e ∈ finalEntries f s ↔ ∃ w, f.final? s = some w ∧ w.isZero = false ∧ e = .final s w := by
  rw [finalEntries]
  cases h : f.final? s with
  | none => simp
  | some w => cases hw : w.isZero <;> simp [hw]

theorem mem_entriesAt_iff :
    e ∈ entriesAt f s ↔ (∃ a ∈ f.arcsFrom s, e = .arc ⟨s, a⟩) ∨
      ∃ w, f.final? s = some w ∧ w.isZero = false ∧ e = .final s w := by
  rw [entriesAt, List.mem_append, List.mem_map, mem_finalEntries_iff]
  simp only [eq_comm]

theorem source_of_mem_entriesAt (h : e ∈ entriesAt f s) : e.source = s := by
  rcases mem_entriesAt_iff.1 h with ⟨a, -, rfl⟩ | ⟨w, -, -, rfl⟩
  · rfl
  · rfl

theorem lt_size_of_mem_entriesAt (h : e ∈ entriesAt f s) : s < f.size := by
  rcases mem_entriesAt_iff.1 h with ⟨a, ha, -⟩ | ⟨w, hw, -, -⟩
  · exact Network.lt_size_of_mem_arcsFrom ha
  · obtain ⟨st, hst, -⟩ := Option.map_eq_some_iff.1 hw
    exact (Array.getElem?_eq_some_iff.1 hst).1

theorem mem_stateOrder_iff (hstart : start < f.size) : s ∈ stateOrder f start ↔ s < f.size := by
  rw [stateOrder, List.mem_cons, List.mem_filter, List.mem_range]
  by_cases h : s = start <;> simp [h, hstart]

theorem nodup_stateOrder (f : Network) (start : StateId) : (stateOrder f start).Nodup := by
  rw [stateOrder, List.nodup_cons]
  constructor
  · simp
  · exact List.nodup_range.filter _

theorem mem_entriesOf_iff (hf : f.WellFormed) (hstart : f.start = some start) :
    e ∈ entriesOf f ↔ e ∈ entriesAt f e.source := by
  simp only [entriesOf, hstart, List.mem_flatMap, mem_stateOrder_iff (hf.1 start hstart)]
  constructor
  · rintro ⟨s, -, he⟩
    rwa [source_of_mem_entriesAt he]
  · intro he
    exact ⟨e.source, lt_size_of_mem_entriesAt he, he⟩

theorem arc_mem_entriesOf_iff (hf : f.WellFormed) (hstart : f.start = some start) :
    .arc ⟨s, a⟩ ∈ entriesOf f ↔ a ∈ f.arcsFrom s := by
  rw [mem_entriesOf_iff hf hstart, mem_entriesAt_iff]
  simp [Entry.source]

theorem final_mem_entriesOf_iff (hf : f.WellFormed) (hstart : f.start = some start) :
    .final s w ∈ entriesOf f ↔ f.final? s = some w ∧ w.isZero = false := by
  rw [mem_entriesOf_iff hf hstart, mem_entriesAt_iff]
  simp [Entry.source]

theorem largestState_lt_size (hf : f.WellFormed) (he : e ∈ entriesOf f) :
    e.largestState < f.size := by
  cases hstart : f.start with
  | none => simp [entriesOf, hstart] at he
  | some start =>
    have he := (mem_entriesOf_iff hf hstart).1 he
    have hsource := lt_size_of_mem_entriesAt he
    rcases mem_entriesAt_iff.1 he with ⟨a, ha, heq⟩ | ⟨w, -, -, heq⟩
    · rw [heq]
      exact Nat.max_lt.2 ⟨hsource, hf.target_lt ha⟩
    · rw [heq]
      exact hsource

theorem flatMap_eq_of_nodup {α β : Type} {items : List α} {x : α} (hnodup : items.Nodup)
    (hx : x ∈ items) {g : α → List β} (hg : ∀ y ∈ items, y ≠ x → g y = []) :
    items.flatMap g = g x := by
  induction items with
  | nil => simp at hx
  | cons y items ih =>
    obtain ⟨hy, hitems⟩ := List.nodup_cons.1 hnodup
    rw [List.flatMap_cons]
    rcases List.mem_cons.1 hx with rfl | hx
    · have hrest : items.flatMap g = [] := by
        rw [List.flatMap_eq_nil_iff]
        intro z hz
        exact hg z (List.mem_cons_of_mem x hz) fun h => hy (h ▸ hz)
      rw [hrest, List.append_nil]
    · have hne : y ≠ x := fun h => hy (h ▸ hx)
      rw [hg y List.mem_cons_self hne, List.nil_append]
      exact ih hitems hx fun z hz => hg z (List.mem_cons_of_mem y hz)

/-- What is picked for one state from the entries of a network is picked from the entries of the
state. -/
theorem filterMap_entriesOf {β : Type} (hf : f.WellFormed) (hstart : f.start = some start)
    {pick : Entry → Option β} (hpick : ∀ e : Entry, e.source ≠ s → pick e = none) :
    (entriesOf f).filterMap pick = (entriesAt f s).filterMap pick := by
  have hother : ∀ t, t ≠ s → (entriesAt f t).filterMap pick = [] := by
    intro t hts
    rw [List.filterMap_eq_nil_iff]
    intro e he
    apply hpick
    rwa [source_of_mem_entriesAt he]
  simp only [entriesOf, hstart, List.filterMap_flatMap]
  rcases Nat.lt_or_ge s f.size with hs | hs
  · exact flatMap_eq_of_nodup (nodup_stateOrder f start)
      ((mem_stateOrder_iff (hf.1 start hstart)).2 hs) fun t _ => hother t
  · have hnil : entriesAt f s = [] := by
      rw [List.eq_nil_iff_forall_not_mem]
      intro e he
      exact Nat.not_lt.2 hs (lt_size_of_mem_entriesAt he)
    rw [hnil, List.filterMap_nil, List.flatMap_eq_nil_iff]
    intro t ht
    have htlt := (mem_stateOrder_iff (hf.1 start hstart)).1 ht
    exact hother t (Nat.ne_of_lt (Nat.lt_of_lt_of_le htlt hs))

theorem filterMap_arcAt_entriesOf (hf : f.WellFormed) (hstart : f.start = some start)
    (s : StateId) : (entriesOf f).filterMap (Entry.arcAt s) = f.arcsFrom s := by
  have hfinal : (finalEntries f s).filterMap (Entry.arcAt s) = [] := by
    rw [List.filterMap_eq_nil_iff]
    intro e he
    obtain ⟨w, -, -, rfl⟩ := mem_finalEntries_iff.1 he
    rfl
  rw [filterMap_entriesOf hf hstart fun e => Entry.arcAt_of_source_ne, entriesAt,
    List.filterMap_append, hfinal, List.filterMap_map]
  simp [Function.comp_def, Entry.arcAt]

theorem filterMap_finalAt_entriesOf (hf : f.WellFormed) (hstart : f.start = some start)
    (s : StateId) :
    (entriesOf f).filterMap (Entry.finalAt s) =
      (f.final? s).toList.filter fun w => !w.isZero := by
  rw [filterMap_entriesOf hf hstart fun e => Entry.finalAt_of_source_ne, entriesAt,
    List.filterMap_append, List.filterMap_map, finalEntries]
  cases f.final? s with
  | none => simp [Function.comp_def, Entry.finalAt]
  | some w => cases hw : w.isZero <;> simp [Function.comp_def, Entry.finalAt, hw]

end WildcardNet.Listing
