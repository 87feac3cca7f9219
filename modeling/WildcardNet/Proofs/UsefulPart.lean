import Mathlib.Data.Set.Function
import Mathlib.Order.Monotone.Defs
import WildcardNet.Proofs.Stability
/-!
# The useful part of a network

Trimming leaves exactly the useful states, numbered in their order, each with its final weight and
with those of its arcs that lead to useful states. There is only one way to number the useful states
in their order without gaps, so this says all there is to say about a trimmed network. All its
states are useful again, and trimming it once more changes nothing.
-/

namespace WildcardNet

/-! ### Numbering places in their order -/

/-- The places with the property get the numbers below `n`, each its own and in their order. -/
structure NumbersInOrder (number : Nat → Nat) (kept : Nat → Prop) (n : Nat) : Prop where
  strictMonoOn : StrictMonoOn number {s | kept s}
  bijOn : Set.BijOn number {s | kept s} (Set.Iio n)

namespace NumbersInOrder

variable {number other : Nat → Nat} {kept : Nat → Prop} {n : Nat}

theorem not_lt (h : NumbersInOrder number kept n) (h' : NumbersInOrder other kept n) {s : Nat}
    (hs : kept s) (ih : ∀ t < s, kept t → number t = other t) : ¬ number s < other s := by
  intro hlt
  -- The smaller number belongs to an earlier place on the other side, where both sides agree.
  have hbelow : number s < n := h.bijOn.mapsTo hs
  obtain ⟨t, ht, heq⟩ := h'.bijOn.surjOn hbelow
  have hts : t < s := (h'.strictMonoOn.lt_iff_lt ht hs).1 (heq ▸ hlt)
  have hsame : t = s := h.bijOn.injOn ht hs ((ih t hts ht).trans heq)
  omega

/-- There is only one way to number places in their order. -/
theorem eqOn (h : NumbersInOrder number kept n) (h' : NumbersInOrder other kept n) :
    Set.EqOn number other {s | kept s} := by
  intro s
  induction s using Nat.strong_induction_on with
  | _ s ih =>
    intro hs
    have hle := h.not_lt h' hs ih
    have hge := h'.not_lt h hs fun t ht hkept => (ih t ht hkept).symm
    omega

end NumbersInOrder

variable {keep : Array Bool}

theorem rank_mono (keep : Array Bool) : Monotone (rank keep) := by
  apply monotone_nat_of_le_succ
  intro s
  rw [rank_succ]
  exact Nat.le_add_right _ _

theorem rank_lt_rank {s t : Nat} (hs : keep[s]? = some true) (hst : s < t) :
    rank keep s < rank keep t := by
  have hsucc : rank keep (s + 1) = rank keep s + 1 := by simp [rank_succ, hs]
  have hle : rank keep (s + 1) ≤ rank keep t := rank_mono keep hst
  omega

namespace Network

variable {f g : Network} {s t : StateId} {arcs : List Arc}

theorem numbersInOrder_rank {kept : StateId → Prop} (hsize : keep.size = f.size)
    (hmark : ∀ s : Nat, keep[s]? = some true ↔ kept s) :
    NumbersInOrder (rank keep) kept (f.restrict keep).size := by
  have hmono : StrictMonoOn (rank keep) {s | kept s} :=
    fun s hs _ _ hst => rank_lt_rank ((hmark s).2 hs) hst
  refine ⟨hmono, ?_, hmono.injOn, ?_⟩
  · intro s hs
    exact rank_lt_size_restrict hsize ((hmark s).2 hs)
  · intro k hk
    obtain ⟨s, hs, heq⟩ := exists_of_lt_size_restrict hsize hk
    exact ⟨s, (hmark s).1 hs, heq.symm⟩

/-! ### Finding out which states are useful -/

theorem useful_start_iff {start : StateId} (hstart : start ∈ f.start) :
    f.Useful start ↔ ∃ t, f.Reaches start t ∧ f.IsFinal t :=
  and_iff_right ⟨start, hstart, Reaches.refl f start⟩

theorem Useful.start (h : f.Useful s) : ∃ start ∈ f.start, f.Useful start := by
  obtain ⟨⟨start, hstart, hreach⟩, t, hon, ht⟩ := h
  exact ⟨start, hstart, (useful_start_iff hstart).2 ⟨t, hreach.trans hon, ht⟩⟩

theorem Run.target_lt_size (h : f.Run s arcs t) (ht : t < f.size) :
    ∀ a ∈ arcs, a.target < f.size := by
  induction h with
  | nil => simp
  | cons leaves rest ih =>
    have hrest := ih ht
    rw [List.forall_mem_cons]
    refine ⟨?_, hrest⟩
    cases rest with
    | nil => exact ht
    | cons leaves' _ => exact lt_size_of_mem_arcsFrom leaves'

/-- Without the arcs that lead nowhere. -/
def deleteDangling (f : Network) : Network := f.deleteArcs fun a => !decide (a.target < f.size)

theorem useful_deleteDangling_iff : f.deleteDangling.Useful s ↔ f.Useful s := by
  have hfinal : ∀ t, f.deleteDangling.IsFinal t ↔ f.IsFinal t :=
    fun t => isFinal_congr (final?_deleteArcs ..)
  have hrun : ∀ {s t arcs}, t < f.size → (f.deleteDangling.Run s arcs t ↔ f.Run s arcs t) := by
    intro s t arcs ht
    rw [deleteDangling, run_deleteArcs_iff]
    refine and_iff_left_of_imp fun h => ?_
    simpa using h.target_lt_size ht
  constructor
  · rintro ⟨⟨start, hstart, xs, hxs⟩, t, ⟨ys, hys⟩, ht⟩
    have ht' := (hfinal t).1 ht
    have hafter := (hrun ht'.lt_size).1 hys
    exact ⟨⟨start, hstart, xs, (hrun (hafter.source_lt_size ht')).1 hxs⟩, t, ⟨ys, hafter⟩, ht'⟩
  · rintro ⟨⟨start, hstart, xs, hxs⟩, t, ⟨ys, hys⟩, ht⟩
    exact ⟨⟨start, hstart, xs, (hrun (hys.source_lt_size ht)).2 hxs⟩, t,
      ⟨ys, (hrun ht.lt_size).2 hys⟩, (hfinal t).2 ht⟩

theorem wellFormed_deleteDangling (hstart : ∀ start ∈ f.start, start < f.size) :
    f.deleteDangling.WellFormed := by
  apply wellFormed_of_arcsFrom
  · rwa [deleteDangling, size_deleteArcs, start_deleteArcs]
  · intro s a ha
    rw [deleteDangling, arcsFrom_deleteArcs] at ha
    rw [deleteDangling, size_deleteArcs]
    simpa using (List.mem_filter.1 ha).2

theorem useful_iff_marked :
    f.Useful s ↔
      ∃ start ∈ f.start, start < f.size ∧ (f.deleteDangling.useful start)[s]? = some true := by
  have hmarked : ∀ start, f.start = some start → start < f.size →
      ((f.deleteDangling.useful start)[s]? = some true ↔ f.Useful s) := by
    intro start hstart hlt
    rw [← useful_deleteDangling_iff]
    refine getElem?_useful_iff (wellFormed_deleteDangling ?_) hstart
    simpa [hstart] using hlt
  constructor
  · intro h
    obtain ⟨start, hstart, huseful⟩ := h.start
    have hlt := huseful.lt_size
    exact ⟨start, hstart, hlt, (hmarked start hstart hlt).2 h⟩
  · rintro ⟨start, hstart, hlt, hmark⟩
    exact (hmarked start hstart hlt).1 hmark

instance (f : Network) : DecidablePred f.Useful :=
  fun _ => decidable_of_iff _ useful_iff_marked.symm

/-! ### Parts of a network -/

/-- The second network has just those states of the first that have the property, renumbered. They
keep their final weights and the arcs between them, and the start is kept if it is one of them. -/
structure IsPart (f g : Network) (kept : StateId → Prop) [DecidablePred kept]
    (number : StateId → StateId) : Prop where
  numbers : NumbersInOrder number kept g.size
  start_eq : g.start = (f.start.filter fun s => kept s).map number
  final?_eq : ∀ s, kept s → g.final? (number s) = f.final? s
  arcsFrom_eq : ∀ s, kept s → g.arcsFrom (number s) =
    ((f.arcsFrom s).filter fun a => kept a.target).map (Arc.moveTarget number)

theorem isPart_restrict {kept : StateId → Prop} [DecidablePred kept] (hsize : keep.size = f.size)
    (hmark : ∀ s : Nat, keep[s]? = some true ↔ kept s) {start : StateId}
    (hstart : f.start = some start) (hkept : kept start) :
    f.IsPart (f.restrict keep) kept (rank keep) where
  numbers := numbersInOrder_rank hsize hmark
  start_eq := by
    rw [start_restrict hstart, hstart]
    simp [hkept]
  final?_eq s hs := final?_restrict hsize ((hmark s).2 hs)
  arcsFrom_eq s hs := by
    have hkeep : ∀ a : Arc, keep.getD a.target false = decide (kept a.target) := by
      intro a
      rw [Bool.eq_iff_iff, getD_keep_iff, hmark, decide_eq_true_iff]
    rw [arcsFrom_restrict hsize ((hmark s).2 hs), keptArcs]
    simp only [hkeep]

theorem isPart_empty {kept : StateId → Prop} [DecidablePred kept] (h : ∀ s, ¬ kept s)
    (number : StateId → StateId) : f.IsPart {} kept number where
  numbers := by
    refine ⟨fun s hs => absurd hs (h s), fun s hs => absurd hs (h s), fun s hs => absurd hs (h s),
      ?_⟩
    intro k hk
    exact absurd hk (Nat.not_lt_zero k)
  start_eq := by
    cases f.start <;> simp [h]
  final?_eq s hs := absurd hs (h s)
  arcsFrom_eq s hs := absurd hs (h s)

/-! ### Trimming -/

theorem trim_network_eq_empty (hf : f.WellFormed) (h : ∀ start ∈ f.start, ¬ f.Useful start) :
    f.trim.network = {} := by
  rcases trim_network_cases hf with hempty | ⟨start, hstart, huseful, -⟩
  · exact hempty
  · exact absurd huseful (h start hstart)

/-- What trimming leaves is the part of the useful states. -/
theorem exists_isPart_trim (hf : f.WellFormed) :
    ∃ number, f.IsPart f.trim.network f.Useful number := by
  by_cases h : ∃ start ∈ f.start, f.Useful start
  · obtain ⟨start, hstart, huseful⟩ := h
    rw [trim_network_of_useful hf hstart huseful]
    exact ⟨_, isPart_restrict (size_useful f start)
      (fun _ => getElem?_useful_iff hf hstart) hstart huseful⟩
  · rw [trim_network_eq_empty hf fun start hstart huseful => h ⟨start, hstart, huseful⟩]
    exact ⟨id, isPart_empty (fun s hs => h hs.start) id⟩

/-- Trimming a well-formed network succeeds. If no final state can be reached from a start, no state
is left. Otherwise the useful states are left with the arcs between them, under the only numbering
that keeps their order, and the start with them. Trimming again changes nothing. -/
theorem trim_network_isPart (hf : f.WellFormed) :
    f.trim.result = .ok () ∧
    ((∀ start ∈ f.start, ∀ t, f.Reaches start t → ¬ f.IsFinal t) → f.trim.network = {}) ∧
    (∀ start ∈ f.start, ∀ t, f.Reaches start t → f.IsFinal t →
      ∃ number, f.IsPart f.trim.network f.Useful number ∧
        f.trim.network.start = some (number start) ∧
        ∀ other, NumbersInOrder other f.Useful f.trim.network.size →
          Set.EqOn other number {s | f.Useful s}) ∧
    f.trim.network.trim.result = .ok () ∧ f.trim.network.trim.network = f.trim.network := by
  refine ⟨trim_result hf, ?_, ?_, trim_result hf.trim,
    trim_network_eq_self hf.trim (useful_trim hf)⟩
  · intro hdead
    apply trim_network_eq_empty hf
    intro start hstart huseful
    obtain ⟨t, hreach, ht⟩ := (useful_start_iff hstart).1 huseful
    exact hdead start hstart t hreach ht
  · intro start hstart t hreach ht
    obtain ⟨number, hpart⟩ := exists_isPart_trim hf
    have huseful : f.Useful start := (useful_start_iff hstart).2 ⟨t, hreach, ht⟩
    refine ⟨number, hpart, ?_, fun other hother => hother.eqOn hpart.numbers⟩
    rw [hpart.start_eq, Option.mem_def.1 hstart]
    simp [huseful]

/-- Of six states on two cycles, one cannot be reached and two lead nowhere. -/
theorem trim_network_isPart_cycles :
    let f : Network := ⟨#[
      ⟨Weight.zero, [⟨9, 9, Weight.one, 4⟩]⟩,
      ⟨Weight.zero, [⟨5, 6, Weight.one, 3⟩, ⟨7, 7, Weight.one, 2⟩, ⟨5, 6, Weight.one, 3⟩]⟩,
      ⟨Weight.zero, [⟨7, 7, Weight.one, 5⟩]⟩,
      ⟨Weight.one, [⟨8, 8, Weight.one, 1⟩, ⟨8, 8, Weight.one, 4⟩]⟩,
      ⟨Weight.one, []⟩,
      ⟨Weight.zero, [⟨7, 7, Weight.one, 2⟩]⟩], some 1⟩
    f.WellFormed ∧
    (∃ number, f.IsPart f.trim.network f.Useful number ∧
      f.trim.network.start = some (number 1) ∧
      ∀ other, NumbersInOrder other f.Useful f.trim.network.size →
        Set.EqOn other number {s | f.Useful s}) ∧
    f.trim.network.trim.network = f.trim.network ∧
    (List.range 6).map (fun s => decide (f.Useful s)) = [false, true, false, true, true, false] ∧
    f.trim.network = ⟨#[
      ⟨Weight.zero, [⟨5, 6, Weight.one, 1⟩, ⟨5, 6, Weight.one, 1⟩]⟩,
      ⟨Weight.one, [⟨8, 8, Weight.one, 0⟩, ⟨8, 8, Weight.one, 2⟩]⟩,
      ⟨Weight.one, []⟩], some 0⟩ := by
  intro f
  have hf : f.WellFormed := isWellFormed_eq_true_iff.1 (by decide)
  have hreach : f.Reaches 1 3 := ⟨_, .cons List.mem_cons_self (.nil 3)⟩
  obtain ⟨-, -, hpart, -, hagain⟩ := trim_network_isPart hf
  exact ⟨hf, hpart 1 rfl 3 hreach ⟨_, rfl, by decide +kernel⟩, hagain, by decide +kernel,
    by decide +kernel⟩

end Network

end WildcardNet
