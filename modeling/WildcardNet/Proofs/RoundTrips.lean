import WildcardNet.Proofs.Listings
import WildcardNet.Proofs.Passes
/-!
# Networks written and read back

A state has a line of its own in a listing when an arc leaves it or it is final. When every state
has one, the listing is read back as the network itself; this is so for every network that has been
trimmed. For a network that has been read, what comes back has the arcs and final weights of the
network, but its start is the first state with a line. So the start is lost when it has no line, and
then a network that accepts nothing can come back as one that accepts something.
-/

namespace WildcardNet

/-! ### Weights and runs -/

@[simp] theorem Weight.isZero_unsignZero (w : Weight) : w.unsignZero.isZero = w.isZero := by
  rw [unsignZero]
  split
  · next h =>
    cases w with
    | nan => simp [isOne, position?] at h
    | infinite negative => cases negative <;> simp [isOne, position?, Magnitude.count] at h
    | finite negative m => rfl
  · rfl

theorem Weight.eq_zero_of_isZero {w : Weight} (h : w.isZero = true) : w = zero := eq_of_beq h

def State.unsignZeros (st : State) : State :=
  ⟨st.final.unsignZero, st.arcs.map Arc.unsignZero⟩

namespace Network

/-- Zero weights of the network lose their sign. -/
def unsignZeros (f : Network) : Network := { f with states := f.states.map State.unsignZeros }

/-- The arcs are those of a run from the start to a final state with the given weight. -/
def SucceedsWith (f : Network) (arcs : List Arc) (w : Weight) : Prop :=
  ∃ start ∈ f.start, ∃ t, f.Run start arcs t ∧ f.final? t = some w ∧ w.isZero = false

/-- The successful runs of the second network are those of the first, zero weights without their
sign. -/
def SameRuns (f g : Network) : Prop :=
  ∀ arcs w, g.SucceedsWith arcs w ↔
    ∃ arcs' w', f.SucceedsWith arcs' w' ∧ arcs = arcs'.map Arc.unsignZero ∧ w = w'.unsignZero

/-- An arc leaves the state or it is final. -/
def Listed (f : Network) (s : StateId) : Prop := f.arcsFrom s ≠ [] ∨ f.IsFinal s

variable {f g : Network} {s t : StateId} {arcs : List Arc}

theorem Run.listed (h : f.Run s arcs t) (ht : f.IsFinal t) : f.Listed s := by
  cases h with
  | nil => exact .inr ht
  | cons leaves _ => exact .inl (List.ne_nil_of_mem leaves)

theorem Useful.listed (h : f.Useful s) : f.Listed s := by
  obtain ⟨-, t, ⟨arcs, hrun⟩, ht⟩ := h
  exact hrun.listed ht

theorem size_unsignZeros (f : Network) : f.unsignZeros.size = f.size := by
  simp [unsignZeros, size]

theorem final?_unsignZeros (f : Network) (s : StateId) :
    f.unsignZeros.final? s = (f.final? s).map Weight.unsignZero := by
  simp [unsignZeros, final?, State.unsignZeros, Function.comp_def]

theorem arcsFrom_unsignZeros (f : Network) (s : StateId) :
    f.unsignZeros.arcsFrom s = (f.arcsFrom s).map Arc.unsignZero := by
  rw [arcsFrom, arcsFrom, arcs?, arcs?, unsignZeros, Array.getElem?_map]
  cases f.states[s]? <;> rfl

theorem run_unsignZero_iff (h : ∀ s, g.arcsFrom s = (f.arcsFrom s).map Arc.unsignZero) :
    g.Run s arcs t ↔ ∃ arcs', f.Run s arcs' t ∧ arcs = arcs'.map Arc.unsignZero := by
  constructor
  · intro hrun
    induction hrun with
    | nil s => exact ⟨[], .nil s, rfl⟩
    | cons leaves _ ih =>
      rw [h] at leaves
      obtain ⟨a, ha, rfl⟩ := List.mem_map.1 leaves
      obtain ⟨arcs', hrun', rfl⟩ := ih
      exact ⟨a :: arcs', .cons ha hrun', rfl⟩
  · rintro ⟨arcs', hrun, rfl⟩
    induction hrun with
    | nil s => exact .nil s
    | cons leaves _ ih => exact .cons (h _ ▸ List.mem_map_of_mem leaves) ih

end Network

/-! ### The network that comes back -/

namespace Listing

variable {f g : Network} {e : Entry} {entries : List Entry} {s start : StateId}

theorem finalEntries_eq_nil_iff : finalEntries f s = [] ↔ ¬ f.IsFinal s := by
  rw [finalEntries, Network.isFinal_iff]
  cases f.final? s with
  | none => simp
  | some w => cases hw : w.isZero <;> simp [hw]

theorem entriesAt_ne_nil_iff : entriesAt f s ≠ [] ↔ f.Listed s := by
  rw [entriesAt, Network.Listed, Ne, List.append_eq_nil_iff, List.map_eq_nil_iff,
    finalEntries_eq_nil_iff, not_and_or, not_not]

/-- The first line is about the start if and only if the start has a line. -/
theorem source_head_entriesOf_iff (hstart : f.start = some start) :
    (entriesOf f).head?.map Entry.source = some start ↔ f.Listed start := by
  simp only [entriesOf, hstart, stateOrder, List.flatMap_cons]
  rw [← entriesAt_ne_nil_iff]
  cases hlines : entriesAt f start with
  | nil =>
    -- The other lines are about other states.
    refine iff_of_false ?_ (not_not_intro rfl)
    intro hhead
    obtain ⟨e, he, hsource⟩ := Option.map_eq_some_iff.1 hhead
    obtain ⟨s, hs, hes⟩ := List.mem_flatMap.1 (List.mem_of_mem_head? he)
    rw [source_of_mem_entriesAt hes] at hsource
    simp [hsource] at hs
  | cons e rest =>
    have he : e.source = start := source_of_mem_entriesAt (hlines ▸ List.mem_cons_self)
    simp [he]

/-- The network that a listing is read back as, if it is. -/
def relisted (f : Network) : Network := describe ((entriesOf f).map Entry.unsignZero)

theorem filterMap_arcAt_unsignZero (entries : List Entry) (s : StateId) :
    (entries.map Entry.unsignZero).filterMap (Entry.arcAt s) =
      (entries.filterMap (Entry.arcAt s)).map Arc.unsignZero := by
  have hentry : ∀ e : Entry, e.unsignZero.arcAt s = (e.arcAt s).map Arc.unsignZero := by
    intro e
    cases e with
    | final t w => rfl
    | arc p => by_cases h : p.source = s <;> simp [Entry.unsignZero, Entry.arcAt, h]
  rw [List.filterMap_map, List.map_filterMap]
  exact List.filterMap_congr fun e _ => hentry e

theorem filterMap_finalAt_unsignZero (entries : List Entry) (s : StateId) :
    (entries.map Entry.unsignZero).filterMap (Entry.finalAt s) =
      (entries.filterMap (Entry.finalAt s)).map Weight.unsignZero := by
  have hentry : ∀ e : Entry, e.unsignZero.finalAt s = (e.finalAt s).map Weight.unsignZero := by
    intro e
    cases e with
    | final t w => by_cases h : t = s <;> simp [Entry.unsignZero, Entry.finalAt, h]
    | arc p => rfl
  rw [List.filterMap_map, List.map_filterMap]
  exact List.filterMap_congr fun e _ => hentry e

theorem lt_size_relisted_iff :
    s < (relisted f).size ↔ ∃ e ∈ entriesOf f, s ≤ e.largestState := by
  rw [relisted, size_describe, lt_stateBound_iff]
  simp

theorem size_relisted_le (hf : f.WellFormed) : (relisted f).size ≤ f.size := by
  apply Nat.le_of_not_lt
  intro hlt
  obtain ⟨e, he, hle⟩ := lt_size_relisted_iff.1 hlt
  exact Nat.not_lt.2 hle (largestState_lt_size hf he)

theorem arcsFrom_relisted (hf : f.WellFormed) (hroot : f.Rooted) (s : StateId) :
    (relisted f).arcsFrom s = (f.arcsFrom s).map Arc.unsignZero := by
  cases hstart : f.start with
  | none =>
    have hempty := hroot hstart
    have hsize := size_relisted_le hf
    rw [Network.arcsFrom_of_size_le (by omega), Network.arcsFrom_of_size_le (by omega),
      List.map_nil]
  | some start =>
    rw [relisted, arcsFrom_describe, filterMap_arcAt_unsignZero,
      filterMap_arcAt_entriesOf hf hstart]

theorem final?_relisted (hf : f.WellFormed) (hroot : f.Rooted) (hs : s < (relisted f).size) :
    (relisted f).final? s = (f.final? s).map Weight.unsignZero := by
  have hlt : s < f.size := Nat.lt_of_lt_of_le hs (size_relisted_le hf)
  obtain ⟨start, hstart⟩ := hroot.exists_start hlt
  have hsome : f.final? s = some (f.states[s].final) := by
    rw [Network.final?, Array.getElem?_eq_getElem hlt, Option.map_some]
  rw [relisted, size_describe] at hs
  rw [relisted, final?_describe hs, filterMap_finalAt_unsignZero,
    filterMap_finalAt_entriesOf hf hstart, hsome]
  cases hzero : f.states[s].final.isZero with
  | false => simp [hzero]
  | true =>
    rw [Weight.eq_zero_of_isZero hzero]
    rfl

theorem start_relisted (f : Network) :
    (relisted f).start = (entriesOf f).head?.map Entry.source := by
  simp [relisted, describe, Function.comp_def]

theorem start_relisted_eq_iff : (relisted f).start = f.start ↔ ∀ s ∈ f.start, f.Listed s := by
  rw [start_relisted]
  cases hstart : f.start with
  | none => simp [entriesOf, hstart]
  | some start => simpa using source_head_entriesOf_iff hstart

theorem final?_relisted_iff (hf : f.WellFormed) (hroot : f.Rooted) {w : Weight} :
    (relisted f).final? s = some w ∧ w.isZero = false ↔
      ∃ w', f.final? s = some w' ∧ w'.isZero = false ∧ w = w'.unsignZero := by
  constructor
  · rintro ⟨hw, hzero⟩
    have hs := (Network.isFinal_iff.2 ⟨w, hw, hzero⟩).lt_size
    rw [final?_relisted hf hroot hs] at hw
    obtain ⟨w', hw', rfl⟩ := Option.map_eq_some_iff.1 hw
    exact ⟨w', hw', by simpa using hzero, rfl⟩
  · rintro ⟨w', hw', hzero, rfl⟩
    obtain ⟨start, hstart⟩ :=
      hroot.exists_start (Network.isFinal_iff.2 ⟨w', hw', hzero⟩).lt_size
    -- The state is final, so it has a line and comes back.
    have hs : s < (relisted f).size :=
      lt_size_relisted_iff.2
        ⟨_, (final_mem_entriesOf_iff hf hstart).2 ⟨hw', hzero⟩, Nat.le_refl s⟩
    rw [final?_relisted hf hroot hs, hw']
    exact ⟨rfl, by simpa using hzero⟩

theorem sameRuns_relisted (hf : f.WellFormed) (hroot : f.Rooted)
    (hlisted : ∀ s ∈ f.start, f.Listed s) : f.SameRuns (relisted f) := by
  intro arcs w
  simp only [Network.SucceedsWith, start_relisted_eq_iff.2 hlisted,
    Network.run_unsignZero_iff (arcsFrom_relisted hf hroot), final?_relisted_iff hf hroot]
  constructor
  · rintro ⟨s, hs, t, ⟨arcs', hrun, rfl⟩, w', hw', hzero, rfl⟩
    exact ⟨arcs', w', ⟨s, hs, t, hrun, hw', hzero⟩, rfl, rfl⟩
  · rintro ⟨arcs', w', ⟨s, hs, t, hrun, hw', hzero⟩, rfl, rfl⟩
    exact ⟨s, hs, t, ⟨arcs', hrun, rfl⟩, w', hw', hzero, rfl⟩

/-- A start without a line has no successful run. -/
theorem listed_of_succeedsWith {arcs : List Arc} {w : Weight} (h : f.SucceedsWith arcs w) :
    ∀ s ∈ f.start, f.Listed s := by
  obtain ⟨start, hstart, t, hrun, hw, hzero⟩ := h
  intro s hs
  obtain rfl : start = s := Option.mem_unique hstart hs
  exact hrun.listed (Network.isFinal_iff.2 ⟨w, hw, hzero⟩)

theorem reread_eq_ok_iff_relisted (hf : f.WellFormed) (hsize : f.size ≤ UInt32.size) :
    reread f = .ok g ↔ Dense (entriesOf f) ∧ g = relisted f :=
  reread_eq_ok_iff fun _ he => Nat.lt_of_lt_of_le (largestState_lt_size hf he) hsize

theorem exists_reread_iff (hf : f.WellFormed) (hsize : f.size ≤ UInt32.size) :
    (∃ g, reread f = .ok g) ↔ Dense (entriesOf f) := by
  simp [reread_eq_ok_iff_relisted hf hsize]

/-- What a network that has been read is written and read back as has the arcs of the network, and
its start if and only if this has a line. It has the runs of the network if this is so, or if nothing
is accepted in the end. -/
theorem sameRuns_reread_iff {text : ByteArray} (hread : read text = .ok f)
    (hreread : reread f = .ok g) :
    (∀ s, g.arcsFrom s = (f.arcsFrom s).map Arc.unsignZero) ∧
      (g.start = f.start ↔ ∀ s ∈ f.start, f.Listed s) ∧
      (f.SameRuns g ↔ (∀ s ∈ f.start, f.Listed s) ∨ ∀ arcs w, ¬ g.SucceedsWith arcs w) := by
  have hf := wellFormed_of_read hread
  have hroot := rooted_of_read hread
  obtain ⟨-, rfl⟩ := (reread_eq_ok_iff_relisted hf (size_le_of_read hread)).1 hreread
  refine ⟨arcsFrom_relisted hf hroot, start_relisted_eq_iff, ?_, ?_⟩
  · intro hsame
    by_cases hlisted : ∀ s ∈ f.start, f.Listed s
    · exact .inl hlisted
    · right
      intro arcs w hrun
      obtain ⟨arcs', w', hrun', -⟩ := (hsame arcs w).1 hrun
      exact hlisted (listed_of_succeedsWith hrun')
  · rintro (hlisted | hnone)
    · exact sameRuns_relisted hf hroot hlisted
    · -- A successful run of the network would have come back.
      intro arcs w
      apply iff_of_false (hnone arcs w)
      rintro ⟨arcs', w', hrun, -⟩
      exact hnone _ _ ((sameRuns_relisted hf hroot (listed_of_succeedsWith hrun) _ _).2
        ⟨arcs', w', hrun, rfl, rfl⟩)

/-- A network with a negative zero in two places keeps its runs. -/
theorem sameRuns_reread_cycle :
    let half : Weight := .finite false ⟨1056964608, by decide⟩
    let negativeZero : Weight := .finite true Magnitude.zero
    let text := "1 0 5 6 -0\n0 1 7 7 .5\n0 -0\n".toUTF8
    let f : Network :=
      ⟨#[⟨negativeZero, [⟨7, 7, half, 1⟩]⟩, ⟨Weight.zero, [⟨5, 6, negativeZero, 0⟩]⟩], some 1⟩
    let g : Network :=
      ⟨#[⟨Weight.one, [⟨7, 7, half, 1⟩]⟩, ⟨Weight.zero, [⟨5, 6, Weight.one, 0⟩]⟩], some 1⟩
    read text = .ok f ∧ reread f = .ok g ∧ f.Listed 1 ∧ g.start = f.start ∧ f.SameRuns g := by
  intro half negativeZero text f g
  have hread : read text = .ok f := by decide +kernel
  have hreread : reread f = .ok g := by decide +kernel
  have hlisted : f.Listed 1 := .inl (List.cons_ne_nil _ _)
  obtain ⟨-, hstart, hruns⟩ := sameRuns_reread_iff hread hreread
  have hall : ∀ s ∈ f.start, f.Listed s := by
    intro s hs
    cases hs
    exact hlisted
  exact ⟨hread, hreread, hlisted, hstart.2 hall, hruns.2 (.inl hall)⟩

/-- The start has no line, since its weight is that of no path, and another state becomes the start:
a network that accepts nothing comes back as one that accepts the empty string. -/
theorem not_sameRuns_reread_infinite_start :
    let f : Network := ⟨#[{}, ⟨Weight.one, []⟩], some 0⟩
    let g : Network := ⟨#[{}, ⟨Weight.one, []⟩], some 1⟩
    read "0 inf\n1\n".toUTF8 = .ok f ∧ reread f = .ok g ∧
      (∀ arcs w, ¬ f.SucceedsWith arcs w) ∧ g.SucceedsWith [] Weight.one ∧ ¬ f.SameRuns g := by
  intro f g
  have hnone : ∀ arcs w, ¬ f.SucceedsWith arcs w := by
    intro arcs w h
    rcases listed_of_succeedsWith h 0 rfl with harcs | hfinal
    · exact harcs rfl
    · obtain ⟨v, hv, hzero⟩ := Network.isFinal_iff.1 hfinal
      cases hv
      exact absurd hzero (by decide)
  have hsome : g.SucceedsWith [] Weight.one := ⟨1, rfl, 1, .nil 1, rfl, by decide⟩
  refine ⟨by decide +kernel, by decide +kernel, hnone, hsome, ?_⟩
  intro hsame
  obtain ⟨arcs, w, hrun, -⟩ := (hsame [] Weight.one).1 hsome
  exact hnone arcs w hrun

/-! ### Trimmed networks -/

theorem length_le_named (entries : List Entry) : entries.length ≤ named entries := by
  induction entries with
  | nil => exact Nat.le_refl 0
  | cons e entries ih =>
    have he : 1 ≤ e.references := by cases e <;> simp [Entry.references]
    rw [named, List.length_cons]
    omega

theorem exists_source_eq (hf : f.WellFormed) (hroot : f.Rooted) (hs : f.Listed s) :
    ∃ e ∈ entriesOf f, e.source = s := by
  obtain ⟨e, rest, heq⟩ := List.ne_nil_iff_exists_cons.1 (entriesAt_ne_nil_iff.2 hs)
  have he : e ∈ entriesAt f s := heq ▸ List.mem_cons_self
  have hsource := source_of_mem_entriesAt he
  obtain ⟨start, hstart⟩ := hroot.exists_start (lt_size_of_mem_entriesAt he)
  exact ⟨e, (mem_entriesOf_iff hf hstart).2 (hsource ▸ he), hsource⟩

/-- If every state has a line then there are as many lines as states. -/
theorem size_le_length_entriesOf (hf : f.WellFormed) (hroot : f.Rooted)
    (hlisted : ∀ s < f.size, f.Listed s) : f.size ≤ (entriesOf f).length := by
  have hsub : List.range f.size ⊆ (entriesOf f).map Entry.source := by
    intro s hs
    exact List.mem_map.2 (exists_source_eq hf hroot (hlisted s (List.mem_range.1 hs)))
  simpa using (List.nodup_range.subperm hsub).length_le

theorem dense_of_listed (hf : f.WellFormed) (hroot : f.Rooted)
    (hlisted : ∀ s < f.size, f.Listed s) : Dense (entriesOf f) := by
  intro e he
  calc
    e.largestState ≤ f.size := Nat.le_of_lt (largestState_lt_size hf he)
    _ ≤ (entriesOf f).length := size_le_length_entriesOf hf hroot hlisted
    _ ≤ named (entriesOf f) := length_le_named _

theorem relisted_of_listed (hf : f.WellFormed) (hroot : f.Rooted)
    (hlisted : ∀ s < f.size, f.Listed s) : relisted f = f.unsignZeros := by
  have hsize : (relisted f).size = f.size := by
    apply Nat.le_antisymm (size_relisted_le hf)
    apply Nat.le_of_not_lt
    intro hlt
    obtain ⟨e, he, hsource⟩ := exists_source_eq hf hroot (hlisted _ hlt)
    exact Nat.lt_irrefl _ (lt_size_relisted_iff.2 ⟨e, he, hsource ▸ e.source_le_largestState⟩)
  apply Network.eq_of_final?_of_arcsFrom
  · apply start_relisted_eq_iff.2
    intro s hs
    exact hlisted s (hf.1 s hs)
  · rw [hsize, Network.size_unsignZeros]
  · intro s hs
    rw [Network.size_unsignZeros, ← hsize] at hs
    rw [Network.final?_unsignZeros, final?_relisted hf hroot hs]
  · intro s
    rw [Network.arcsFrom_unsignZeros, arcsFrom_relisted hf hroot]

theorem write_eq_nil_iff : write f = [] ↔ entriesOf f = [] := by
  rw [write_eq, List.flatMap_eq_nil_iff, List.eq_nil_iff_forall_not_mem]
  simp [line]

end Listing

/-- The network is what trimming, or a pass that ends with it, leaves of a well-formed one. -/
inductive Network.Trimmed : Network → Prop
  | trim {f : Network} (hf : f.WellFormed) : Trimmed f.trim.network
  | strip {f : Network} (hf : f.WellFormed) (w : Wildcards) : Trimmed (f.strip w).network
  | close {f : Network} (hf : f.WellFormed) (w : Wildcards) (alphabet : List Label) :
      Trimmed (f.close w alphabet).network
  | synchronize {f : Network} (hf : f.WellFormed) (rule : RuleMarks) (w : Wildcards) :
      Trimmed (f.synchronize rule w).network

namespace Network.Trimmed

variable {f : Network}

theorem exists_trim (h : f.Trimmed) : ∃ g : Network, g.WellFormed ∧ f = g.trim.network := by
  cases h with
  | trim hf => exact ⟨_, hf, rfl⟩
  | strip hf w => exact ⟨_, hf.sinkArcs _, (strip_network hf w).trans (pruneArcs_network hf _)⟩
  | close hf w alphabet =>
    have hexpand := hf.expand w alphabet
    refine ⟨_, hexpand.sinkArcs w.onArc, ?_⟩
    rw [close_network hf, strip_network hexpand, pruneArcs_network hexpand]
  | synchronize hf rule w =>
    have hlinks := hf.withLinks rule w
    exact ⟨_, hlinks.sinkArcs _, (synchronize_network hf rule w).trans (pruneArcs_network hlinks _)⟩

theorem wellFormed (h : f.Trimmed) : f.WellFormed := by
  obtain ⟨g, hg, rfl⟩ := h.exists_trim
  exact hg.trim

theorem useful (h : f.Trimmed) : ∀ s < f.size, f.Useful s := by
  obtain ⟨g, hg, rfl⟩ := h.exists_trim
  exact useful_trim hg

theorem listed (h : f.Trimmed) : ∀ s < f.size, f.Listed s := fun s hs => (h.useful s hs).listed

theorem rooted (h : f.Trimmed) : f.Rooted := by
  intro hstart
  apply Nat.eq_zero_of_not_pos
  intro hpos
  obtain ⟨⟨start, hmem, -⟩, -⟩ := h.useful 0 hpos
  simp [hstart] at hmem

end Network.Trimmed

namespace Listing

/-- A trimmed network is written and read back unchanged but for the sign of zeros, and its listing
is empty if and only if it has no states. In a listing states are 32-bit numbers, so the network has
fewer states than there are such numbers. -/
theorem reread_trimmed {f : Network} (h : f.Trimmed) (hsize : f.size < UInt32.size) :
    reread f = .ok f.unsignZeros ∧ (write f = [] ↔ f.size = 0) := by
  have hf := h.wellFormed
  have hdense := dense_of_listed hf h.rooted h.listed
  have hback := relisted_of_listed hf h.rooted h.listed
  refine ⟨(reread_eq_ok_iff_relisted hf hsize.le).2 ⟨hdense, hback.symm⟩, ?_⟩
  rw [write_eq_nil_iff]
  constructor
  · intro hnil
    have hle := size_le_length_entriesOf hf h.rooted h.listed
    simpa [hnil] using hle
  · intro hzero
    rw [List.eq_nil_iff_forall_not_mem]
    intro e he
    exact Nat.not_lt_zero _ (hzero ▸ largestState_lt_size hf he)

/-- Stripping deletes a wildcard arc and the state behind it, and the rest comes back. -/
theorem reread_trimmed_stripped :
    let negativeZero : Weight := .finite true Magnitude.zero
    let g : Network := ⟨#[⟨Weight.zero, [⟨100, 100, Weight.one, 1⟩, ⟨5, 6, negativeZero, 2⟩]⟩,
      ⟨Weight.one, []⟩, ⟨.nan, [⟨7, 7, .infinite true, 0⟩]⟩], some 0⟩
    let f := (g.strip ⟨100, 101⟩).network
    g.WellFormed ∧ f.size = 2 ∧ f.unsignZeros ≠ f ∧ reread f = .ok f.unsignZeros ∧
      (write f = [] ↔ f.size = 0) := by
  intro negativeZero g f
  have hg : g.WellFormed := Network.isWellFormed_eq_true_iff.1 (by decide)
  have hsize : f.size = 2 := by decide +kernel
  have hsmall : f.size < UInt32.size := by
    rw [hsize]
    decide
  exact ⟨hg, hsize, by decide +kernel, reread_trimmed (.strip hg ⟨100, 101⟩) hsmall⟩

end Listing

end WildcardNet
