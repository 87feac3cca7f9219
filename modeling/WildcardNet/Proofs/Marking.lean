import Mathlib.Data.List.Basic
import Mathlib.Data.List.TakeWhile
import Mathlib.Logic.Relation
import WildcardNet.Network.Trim
import WildcardNet.Proofs.Edits
/-!
# Marking finds what can be reached

The search behind trimming marks places from a work list and breaks off at a place that does not
exist. Beside it stands the same search with such places passed over, which always has an answer.
Whatever is marked was marked before or can be reached from the work list, and at the end every
place that a marked one leads to is marked as well: the budget of steps bounds the number of places
that are not marked yet. For a network this gives the states on a path from the start to a final
state, and the search for them breaks off exactly when the start or the target of some arc is not a
state.
-/

namespace WildcardNet

open Relation

/-- One place leads to another. -/
abbrev LeadsTo (next : Nat → List Nat) (s t : Nat) : Prop := t ∈ next s

/-! ### Searches that always have an answer -/

/-- Marks what can be reached from the work list through places that exist. -/
def markWithin (next : Nat → List Nat) : Nat → Array Bool → List Nat → Array Bool
  | 0, seen, _ => seen
  | budget + 1, seen, work =>
    match work.dropWhile fun s => seen.getD s true with
    | [] => seen
    | s :: rest => markWithin next budget (seen.setIfInBounds s true) (next s ++ rest)

def mark (n : Nat) (next : Nat → List Nat) (roots : List Nat) : Array Bool :=
  markWithin next n (Array.replicate n false) roots

namespace Network

def predecessors (f : Network) : Array (List StateId) :=
  f.placedArcs.foldl (fun found a => found.modify a.arc.target (a.source :: ·))
    (Array.replicate f.size [])

def accessible (f : Network) (start : StateId) : Array Bool := mark f.size f.successors [start]

def coaccessible (f : Network) : Array Bool :=
  let before := f.predecessors
  mark f.size (fun s => before.getD s []) f.finalStates

def useful (f : Network) (start : StateId) : Array Bool :=
  Array.zipWith (· && ·) (f.accessible start) f.coaccessible

end Network

variable {next : Nat → List Nat} {seen : Array Bool} {work : List Nat}

/-- The places that a marked place leads to are marked or still on the work list. -/
def Explored (next : Nat → List Nat) (seen : Array Bool) (work : List Nat) : Prop :=
  ∀ s t : Nat, seen[s]? = some true → t ∈ next s → t < seen.size → seen[t]? = some true ∨ t ∈ work

/-! ### What one step does -/

theorem getElem?_setIfInBounds_true_iff (s t : Nat) :
    (seen.setIfInBounds s true)[t]? = some true ↔
      (s = t ∧ t < seen.size) ∨ seen[t]? = some true := by
  rw [Array.getElem?_setIfInBounds]
  by_cases h : s = t
  · subst h
    by_cases hs : s < seen.size
    · simp [hs]
    · simp [hs]
  · simp [h]

/-- Past the last place everything counts as marked. -/
theorem getElem?_of_getD_true {t : Nat} (ht : t < seen.size) (h : seen.getD t true = true) :
    seen[t]? = some true := by
  rw [Array.getElem?_eq_getElem ht]
  simpa [ht] using h

/-- The work list up to the first place that is to be marked holds nothing new. -/
theorem marked_of_mem_dropped {s : Nat} {rest : List Nat}
    (h : work.dropWhile (fun s => seen.getD s true) = s :: rest) :
    seen[s]? = some false ∧ ∀ t ∈ work, seen.getD t true = true ∨ t = s ∨ t ∈ rest := by
  induction work with
  | nil => simp at h
  | cons t work ih =>
    by_cases ht : seen.getD t true = true
    · rw [List.dropWhile_cons_of_pos (by simpa using ht)] at h
      obtain ⟨hs, hrest⟩ := ih h
      refine ⟨hs, ?_⟩
      intro u hu
      rcases List.mem_cons.1 hu with rfl | hu
      · exact .inl ht
      · exact hrest u hu
    · rw [List.dropWhile_cons_of_neg (by simpa using ht), List.cons.injEq] at h
      obtain ⟨rfl, rfl⟩ := h
      refine ⟨?_, ?_⟩
      · cases hseen : seen[t]? with
        | none => simp [hseen] at ht
        | some b => simpa [hseen] using ht
      · intro u hu
        rcases List.mem_cons.1 hu with rfl | hu
        · exact .inr (.inl rfl)
        · exact .inr (.inr hu)

/-- Marking a place that was not marked leaves one place less to mark. -/
theorem count_false_mark {s : Nat} (hs : seen[s]? = some false) :
    (seen.setIfInBounds s true).count false + 1 = seen.count false := by
  obtain ⟨hlt, hval⟩ := Array.getElem?_eq_some_iff.1 hs
  have hpos : 0 < seen.count false := Array.count_pos_iff.2 (hval ▸ Array.getElem_mem hlt)
  have hset : (seen.setIfInBounds s true).count false = seen.count false - 1 := by
    rw [Array.setIfInBounds_def, dif_pos hlt, Array.count_set, hval]
    simp
  omega

theorem marked_of_count_eq_zero (h : seen.count false = 0) {t : Nat} (ht : t < seen.size) :
    seen[t]? = some true := by
  have hnot : false ∉ seen := Array.count_eq_zero.1 h
  have hmem : seen[t] ∈ seen := Array.getElem_mem ht
  rw [Array.getElem?_eq_getElem ht]
  cases hb : seen[t] with
  | true => rfl
  | false => exact absurd (hb ▸ hmem) hnot

/-- Marking the first unmarked place and putting where it leads on the work list leaves nothing
forgotten. -/
theorem Explored.step {s : Nat} {rest : List Nat} (hexplored : Explored next seen work)
    (hwork : ∀ t ∈ work, seen.getD t true = true ∨ t = s ∨ t ∈ rest) :
    Explored next (seen.setIfInBounds s true) (next s ++ rest) := by
  intro u t hu hut ht
  rw [Array.size_setIfInBounds] at ht
  rw [getElem?_setIfInBounds_true_iff] at hu ⊢
  rcases hu with ⟨rfl, _⟩ | hu
  · exact .inr (List.mem_append_left rest hut)
  · rcases hexplored u t hu hut ht with h | h
    · exact .inl (.inr h)
    · rcases hwork t h with h | rfl | h
      · exact .inl (.inr (getElem?_of_getD_true ht h))
      · exact .inl (.inl ⟨rfl, ht⟩)
      · exact .inr (List.mem_append_right (next s) h)

/-! ### What a whole search does -/

theorem size_markWithin (budget : Nat) : (markWithin next budget seen work).size = seen.size := by
  induction budget generalizing seen work with
  | zero => rfl
  | succ budget ih =>
    rw [markWithin]
    split
    · rfl
    · rw [ih, Array.size_setIfInBounds]

/-- Whatever is marked was marked before or can be reached from the work list. -/
theorem reachable_of_markWithin {budget t : Nat}
    (h : (markWithin next budget seen work)[t]? = some true) :
    seen[t]? = some true ∨ ∃ s ∈ work, ReflTransGen (LeadsTo next) s t := by
  induction budget generalizing seen work with
  | zero => exact .inl h
  | succ budget ih =>
    rw [markWithin] at h
    split at h
    · exact .inl h
    · next s rest hdrop =>
      have hwork : ∀ u ∈ s :: rest, u ∈ work := by
        intro u hu
        exact (List.dropWhile_suffix _).subset (hdrop ▸ hu)
      rcases ih h with hseen | ⟨u, hu, hreach⟩
      · rcases (getElem?_setIfInBounds_true_iff s t).1 hseen with ⟨rfl, _⟩ | hseen
        · exact .inr ⟨s, hwork s List.mem_cons_self, .refl⟩
        · exact .inl hseen
      · rcases List.mem_append.1 hu with hu | hu
        · exact .inr ⟨s, hwork s List.mem_cons_self, .head hu hreach⟩
        · exact .inr ⟨u, hwork u (List.mem_cons_of_mem s hu), hreach⟩

/-- With enough steps left, a search keeps the marks there are, marks the work list, and ends with
nothing left to explore. -/
theorem markWithin_spec (budget : Nat) (hbudget : seen.count false ≤ budget)
    (hexplored : Explored next seen work) :
    (∀ t : Nat, seen[t]? = some true → (markWithin next budget seen work)[t]? = some true) ∧
      (∀ t ∈ work, t < seen.size → (markWithin next budget seen work)[t]? = some true) ∧
      Explored next (markWithin next budget seen work) [] := by
  induction budget generalizing seen work with
  | zero =>
    -- Without steps left there is no unmarked place either.
    have hall : ∀ t : Nat, t < seen.size → seen[t]? = some true :=
      fun t ht => marked_of_count_eq_zero (Nat.le_zero.1 hbudget) ht
    exact ⟨fun _ h => h, fun t _ ht => hall t ht, fun _ t _ _ ht => .inl (hall t ht)⟩
  | succ budget ih =>
    rw [markWithin]
    split
    · next hdrop =>
      have hwork : ∀ t ∈ work, t < seen.size → seen[t]? = some true := by
        intro t ht hlt
        exact getElem?_of_getD_true hlt (List.dropWhile_eq_nil_iff.1 hdrop t ht)
      refine ⟨fun _ h => h, hwork, ?_⟩
      intro s t hs hst ht
      rcases hexplored s t hs hst ht with h | h
      · exact .inl h
      · exact .inl (hwork t h ht)
    · next s rest hdrop =>
      obtain ⟨hs, hwork⟩ := marked_of_mem_dropped hdrop
      have hcount := count_false_mark hs
      obtain ⟨hkeep, hmarked, hclosed⟩ := ih (by omega) (hexplored.step hwork)
      refine ⟨fun t ht => hkeep t ((getElem?_setIfInBounds_true_iff s t).2 (.inr ht)), ?_, hclosed⟩
      intro t ht hlt
      rcases hwork t ht with h | rfl | h
      · have hseen := getElem?_of_getD_true hlt h
        exact hkeep t ((getElem?_setIfInBounds_true_iff s t).2 (.inr hseen))
      · exact hkeep t ((getElem?_setIfInBounds_true_iff t t).2 (.inl ⟨rfl, hlt⟩))
      · exact hmarked t (List.mem_append_right (next s) h) (by rwa [Array.size_setIfInBounds])

@[simp] theorem size_mark (n : Nat) (next : Nat → List Nat) (roots : List Nat) :
    (mark n next roots).size = n := by
  rw [mark, size_markWithin, Array.size_replicate]

/-- Among places that lead to no place outside, exactly those that can be reached are marked. -/
theorem getElem?_mark_eq_true_iff {n t : Nat} {roots : List Nat}
    (hnext : ∀ s < n, ∀ t ∈ next s, t < n) (hroots : ∀ r ∈ roots, r < n) :
    (mark n next roots)[t]? = some true ↔ ∃ r ∈ roots, ReflTransGen (LeadsTo next) r t := by
  have hblank : ∀ s : Nat, (Array.replicate n false)[s]? ≠ some true := by
    intro s
    rw [Array.getElem?_replicate]
    split <;> simp
  constructor
  · intro h
    rcases reachable_of_markWithin h with h | h
    · exact absurd h (hblank t)
    · exact h
  · rintro ⟨r, hr, hreach⟩
    have hexplored : Explored next (Array.replicate n false) roots :=
      fun s _ hs => absurd hs (hblank s)
    obtain ⟨-, hmarked, hclosed⟩ :=
      markWithin_spec n (by simp) hexplored
    have hsteps : t < n ∧ (mark n next roots)[t]? = some true := by
      induction hreach with
      | refl => exact ⟨hroots r hr, hmarked r hr (by simpa using hroots r hr)⟩
      | tail _ hstep ih =>
        obtain ⟨hlt, hmark⟩ := ih
        have htlt := hnext _ hlt _ hstep
        have hmark' := hclosed _ _ hmark hstep (by simpa [size_markWithin] using htlt)
        exact ⟨htlt, hmark'.resolve_right List.not_mem_nil⟩
    exact hsteps.2

/-! ### Searches that break off -/

/-- What a marked place leads to is marked or on the work list, whether it exists or not. -/
def Queued (next : Nat → List Nat) (seen : Array Bool) (work : List Nat) : Prop :=
  ∀ s t : Nat, seen[s]? = some true → t ∈ next s → seen[t]? = some true ∨ t ∈ work

theorem Queued.step {s : Nat} {rest : List Nat} (hqueued : Queued next seen work)
    (hwork : ∀ t ∈ work, seen[t]? = some true ∨ t ∈ s :: rest) (hs : s < seen.size) :
    Queued next (seen.setIfInBounds s true) (next s ++ rest) := by
  intro u t hu hut
  rw [getElem?_setIfInBounds_true_iff] at hu ⊢
  rcases hu with ⟨rfl, -⟩ | hu
  · exact .inr (List.mem_append_left rest hut)
  · rcases hqueued u t hu hut with h | h
    · exact .inl (.inr h)
    · rcases hwork t h with h | h
      · exact .inl (.inr h)
      · rcases List.mem_cons.1 h with rfl | h
        · exact .inl (.inl ⟨rfl, hs⟩)
        · exact .inr (List.mem_append_right (next s) h)

theorem marked_or_mem_of_dropWhile {s : Nat} {rest : List Nat}
    (h : (work.dropWhile fun s => seen[s]? == some true) = s :: rest) :
    ∀ t ∈ work, seen[t]? = some true ∨ t ∈ s :: rest := by
  intro t ht
  rw [← List.takeWhile_append_dropWhile (p := fun s => seen[s]? == some true) (l := work), h] at ht
  rcases List.mem_append.1 ht with ht | ht
  · have hmarked := List.mem_takeWhile_imp ht
    exact .inl (beq_iff_eq.1 hmarked)
  · exact .inr ht

/-- A search that has an answer keeps the marks there are, has marked the work list, and leaves
nothing that a marked place leads to without a mark. -/
theorem markWithin?_spec {budget : Nat} {marks : Array Bool}
    (h : markWithin? next budget seen work = some marks) (hqueued : Queued next seen work) :
    (∀ t : Nat, seen[t]? = some true → marks[t]? = some true) ∧
      (∀ t ∈ work, marks[t]? = some true) ∧ Queued next marks [] := by
  induction budget generalizing seen work with
  | zero => simp [markWithin?] at h
  | succ budget ih =>
    rw [markWithin?] at h
    split at h
    · next hdrop =>
      obtain rfl : seen = marks := Option.some.inj h
      have hwork : ∀ t ∈ work, seen[t]? = some true :=
        fun t ht => beq_iff_eq.1 (List.dropWhile_eq_nil_iff.1 hdrop t ht)
      refine ⟨fun _ h => h, hwork, ?_⟩
      intro s t hs hst
      exact .inl ((hqueued s t hs hst).elim id (hwork t))
    · next s rest hdrop =>
      have hmet := marked_or_mem_of_dropWhile hdrop
      split at h
      · next hs =>
        obtain ⟨hkeep, hmarked, hclosed⟩ := ih h (hqueued.step hmet hs)
        have hold : ∀ t : Nat, seen[t]? = some true → marks[t]? = some true :=
          fun t ht => hkeep t ((getElem?_setIfInBounds_true_iff s t).2 (.inr ht))
        refine ⟨hold, ?_, hclosed⟩
        intro t ht
        rcases hmet t ht with ht | ht
        · exact hold t ht
        · rcases List.mem_cons.1 ht with rfl | ht
          · exact hkeep t ((getElem?_setIfInBounds_true_iff t t).2 (.inl ⟨rfl, hs⟩))
          · exact hmarked t (List.mem_append_right (next s) ht)
      · cases h

theorem size_of_markWithin? {budget : Nat} {marks : Array Bool}
    (h : markWithin? next budget seen work = some marks) : marks.size = seen.size := by
  induction budget generalizing seen work with
  | zero => simp [markWithin?] at h
  | succ budget ih =>
    rw [markWithin?] at h
    split at h
    · rw [← Option.some.inj h]
    · split at h
      · rw [ih h, Array.size_setIfInBounds]
      · cases h

theorem dropWhile_marked_eq (hwork : ∀ s ∈ work, s < seen.size) :
    (work.dropWhile fun s => seen[s]? == some true) = work.dropWhile fun s => seen.getD s true := by
  induction work with
  | nil => rfl
  | cons s work ih =>
    obtain ⟨hs, hrest⟩ := List.forall_mem_cons.1 hwork
    have hsame : (seen[s]? == some true) = seen.getD s true := by
      rw [Array.getElem?_eq_getElem hs]
      simp [hs]
    simp only [List.dropWhile_cons, hsame, ih hrest]

/-- A search that comes upon existing places only has an answer. -/
theorem markWithin?_eq_some (budget : Nat) (hbudget : seen.count false ≤ budget)
    (hahead : ∀ s ∈ work, ∀ t, ReflTransGen (LeadsTo next) s t → t < seen.size) :
    markWithin? next (budget + 1) seen work = some (markWithin next budget seen work) := by
  have hwork : ∀ s ∈ work, s < seen.size := fun s hs => hahead s hs s .refl
  induction budget generalizing seen work with
  | zero =>
    have hnil : (work.dropWhile fun s => seen[s]? == some true) = [] := by
      rw [List.dropWhile_eq_nil_iff]
      intro s hs
      exact beq_iff_eq.2 (marked_of_count_eq_zero (Nat.le_zero.1 hbudget) (hwork s hs))
    rw [markWithin?, hnil, markWithin]
  | succ budget ih =>
    rw [markWithin?, dropWhile_marked_eq hwork, markWithin]
    cases hdrop : work.dropWhile fun s => seen.getD s true with
    | nil => rfl
    | cons s rest =>
      have hmem : ∀ u ∈ s :: rest, u ∈ work :=
        fun u hu => (List.dropWhile_suffix _).subset (hdrop ▸ hu)
      have hcount := count_false_mark (marked_of_mem_dropped hdrop).1
      have hs := hwork s (hmem s List.mem_cons_self)
      -- What lies ahead of the new work list lay ahead of the old one.
      have hahead' : ∀ u ∈ next s ++ rest, ∀ t, ReflTransGen (LeadsTo next) u t →
          t < (seen.setIfInBounds s true).size := by
        intro u hu t hut
        rw [Array.size_setIfInBounds]
        rcases List.mem_append.1 hu with hu | hu
        · exact hahead s (hmem s List.mem_cons_self) t (.head hu hut)
        · exact hahead u (hmem u (List.mem_cons_of_mem s hu)) t hut
      simp only [hs, ↓reduceIte]
      exact ih (by omega) hahead' fun u hu => hahead' u hu u .refl

/-- A search breaks off exactly when a place that does not exist can be reached. -/
theorem mark?_eq_some_iff {n : Nat} {roots : List Nat} {marks : Array Bool} :
    mark? n next roots = some marks ↔
      (∀ r ∈ roots, ∀ t, ReflTransGen (LeadsTo next) r t → t < n) ∧
        mark n next roots = marks := by
  have hanswer : (∀ r ∈ roots, ∀ t, ReflTransGen (LeadsTo next) r t → t < n) →
      mark? n next roots = some (mark n next roots) := by
    intro hahead
    exact markWithin?_eq_some n (by simp) (by simpa using hahead)
  constructor
  · intro h
    have hqueued : Queued next (Array.replicate n false) roots := by
      intro s t hs
      rw [Array.getElem?_replicate] at hs
      split at hs <;> cases hs
    obtain ⟨-, hroots, hclosed⟩ := markWithin?_spec h hqueued
    have hsize : marks.size = n := by rw [size_of_markWithin? h, Array.size_replicate]
    have hahead : ∀ r ∈ roots, ∀ t, ReflTransGen (LeadsTo next) r t → t < n := by
      intro r hr t hrt
      have hmarked : marks[t]? = some true := by
        induction hrt with
        | refl => exact hroots r hr
        | tail _ hstep ih => exact (hclosed _ _ ih hstep).resolve_right List.not_mem_nil
      exact hsize ▸ (Array.getElem?_eq_some_iff.1 hmarked).1
    exact ⟨hahead, Option.some.inj ((hanswer hahead).symm.trans h)⟩
  · rintro ⟨hahead, rfl⟩
    exact hanswer hahead

namespace Network

variable {f : Network} {s t : StateId}

/-! ### Reachable states -/

theorem mem_successors_iff : t ∈ f.successors s ↔ ∃ a ∈ f.arcsFrom s, a.target = t := by
  simp [successors]

theorem WellFormed.successors_lt (hf : f.WellFormed) :
    ∀ s < f.size, ∀ t ∈ f.successors s, t < f.size := by
  intro s _ t ht
  obtain ⟨a, ha, rfl⟩ := mem_successors_iff.1 ht
  exact hf.target_lt ha

theorem reaches_iff : f.Reaches s t ↔ ReflTransGen (LeadsTo f.successors) s t := by
  constructor
  · rintro ⟨arcs, hrun⟩
    induction hrun with
    | nil => exact .refl
    | cons leaves _ ih => exact .head (mem_successors_iff.2 ⟨_, leaves, rfl⟩) ih
  · intro h
    induction h using ReflTransGen.head_induction_on with
    | refl => exact Reaches.refl f t
    | head hstep _ ih =>
      obtain ⟨a, ha, rfl⟩ := mem_successors_iff.1 hstep
      obtain ⟨arcs, hrun⟩ := ih
      exact ⟨a :: arcs, .cons ha hrun⟩

theorem getElem?_accessible_iff (hf : f.WellFormed) {start : StateId} (hstart : start < f.size) :
    (f.accessible start)[s]? = some true ↔ f.Reaches start s := by
  rw [accessible, getElem?_mark_eq_true_iff hf.successors_lt (by simpa using hstart), reaches_iff]
  simp

/-! ### States that reach a final one -/

/-- Collecting sources under their targets adds each source where its arc leads. -/
theorem mem_collected_iff (arcs : List PlacedArc) (found : Array (List StateId))
    (ht : t < found.size) :
    s ∈ (arcs.foldl (fun found p => found.modify p.arc.target (p.source :: ·)) found).getD t [] ↔
      s ∈ found.getD t [] ∨ ∃ p ∈ arcs, p.arc.target = t ∧ p.source = s := by
  induction arcs generalizing found with
  | nil => simp
  | cons p arcs ih =>
    rw [List.foldl_cons, ih _ (by simpa using ht)]
    have hstep : s ∈ (found.modify p.arc.target (p.source :: ·)).getD t [] ↔
        s ∈ found.getD t [] ∨ (p.arc.target = t ∧ p.source = s) := by
      rw [Array.getD_eq_getD_getElem?, Array.getD_eq_getD_getElem?, Array.getElem?_modify,
        Array.getElem?_eq_getElem ht]
      by_cases h : p.arc.target = t
      · simp [h, or_comm, eq_comm]
      · simp [h]
    rw [hstep, or_assoc]
    simp

theorem mem_predecessors_iff (ht : t < f.size) :
    s ∈ f.predecessors.getD t [] ↔ t ∈ f.successors s := by
  rw [predecessors, mem_collected_iff _ _ (by simpa using ht), mem_successors_iff]
  constructor
  · rintro (h | ⟨p, hp, htarget, rfl⟩)
    · simp [ht] at h
    · exact ⟨p.arc, mem_placedArcs_iff.1 hp, htarget⟩
  · rintro ⟨a, ha, htarget⟩
    exact .inr ⟨⟨s, a⟩, mem_placedArcs_iff.2 ha, htarget, rfl⟩

theorem mem_finalStates_iff : s ∈ f.finalStates ↔ f.IsFinal s := by
  rw [finalStates, List.mem_filter, List.mem_range, IsFinal]
  constructor
  · rintro ⟨hs, hfinal⟩
    have hst : f.states[s]? = some f.states[s] := Array.getElem?_eq_getElem hs
    exact ⟨_, hst, by simpa [hst] using hfinal⟩
  · rintro ⟨st, hst, hfinal⟩
    exact ⟨(Array.getElem?_eq_some_iff.1 hst).1, by simpa [hst] using hfinal⟩

theorem lt_size_of_mem_predecessors (ht : t < f.size) (hs : s ∈ f.predecessors.getD t []) :
    s < f.size := by
  obtain ⟨a, ha, -⟩ := mem_successors_iff.1 ((mem_predecessors_iff ht).1 hs)
  exact lt_size_of_mem_arcsFrom ha

/-- Going backwards from a state finds the states from which it can be reached. -/
theorem predecessors_reach_iff (ht : t < f.size) :
    ReflTransGen (LeadsTo fun u => f.predecessors.getD u []) t s ↔ f.Reaches s t := by
  constructor
  · intro h
    have hboth : s < f.size ∧ f.Reaches s t := by
      induction h with
      | refl => exact ⟨ht, Reaches.refl f t⟩
      | tail _ hstep ih =>
        obtain ⟨hu, hreach⟩ := ih
        obtain ⟨a, ha, rfl⟩ := mem_successors_iff.1 ((mem_predecessors_iff hu).1 hstep)
        have hone : f.Reaches _ a.target := ⟨[a], .cons ha (.nil _)⟩
        exact ⟨lt_size_of_mem_arcsFrom ha, hone.trans hreach⟩
    exact hboth.2
  · rintro ⟨arcs, hrun⟩
    have hboth : s < f.size ∧
        ReflTransGen (LeadsTo fun u => f.predecessors.getD u []) t s := by
      induction hrun with
      | nil => exact ⟨ht, .refl⟩
      | cons leaves _ ih =>
        obtain ⟨hu, hback⟩ := ih ht
        have hstep := (mem_predecessors_iff hu).2 (mem_successors_iff.2 ⟨_, leaves, rfl⟩)
        exact ⟨lt_size_of_mem_arcsFrom leaves, hback.tail hstep⟩
    exact hboth.2

theorem getElem?_coaccessible_iff (f : Network) (s : StateId) :
    f.coaccessible[s]? = some true ↔ ∃ t, f.Reaches s t ∧ f.IsFinal t := by
  have hback : ∀ u < f.size, ∀ v ∈ f.predecessors.getD u [], v < f.size :=
    fun u hu v hv => lt_size_of_mem_predecessors hu hv
  have hroots : ∀ r ∈ f.finalStates, r < f.size := fun r hr => (mem_finalStates_iff.1 hr).lt_size
  rw [coaccessible, getElem?_mark_eq_true_iff hback hroots]
  constructor
  · rintro ⟨r, hr, hreach⟩
    exact ⟨r, (predecessors_reach_iff (hroots r hr)).1 hreach, mem_finalStates_iff.1 hr⟩
  · rintro ⟨t, hreach, hfinal⟩
    exact ⟨t, mem_finalStates_iff.2 hfinal, (predecessors_reach_iff hfinal.lt_size).2 hreach⟩

@[simp] theorem size_useful (f : Network) (start : StateId) : (f.useful start).size = f.size := by
  simp [useful, accessible, coaccessible]

/-- The marks of a network are set on the states that lie on a run from the start to a final
state. -/
theorem getElem?_useful_iff (hf : f.WellFormed) {start : StateId} (hstart : f.start = some start) :
    (f.useful start)[s]? = some true ↔ f.Useful s := by
  have hlt : start < f.size := hf.1 start hstart
  rw [useful, Array.getElem?_zipWith_eq_some, Useful, hstart]
  simp only [← getElem?_coaccessible_iff, Option.mem_def, Option.some.injEq, exists_eq_left',
    ← getElem?_accessible_iff hf hlt]
  constructor
  · rintro ⟨x, y, hx, hy, hxy⟩
    obtain ⟨rfl, rfl⟩ := Bool.and_eq_true_iff.1 hxy
    exact ⟨hx, hy⟩
  · rintro ⟨hx, hy⟩
    exact ⟨true, true, hx, hy, rfl⟩

/-! ### Networks with arcs that lead nowhere -/

theorem foldlM_collect_eq_some_iff (arcs : List PlacedArc) (found : Array (List StateId))
    {result : Array (List StateId)} :
    arcs.foldlM (fun found p => if p.arc.target < found.size then
        some (found.modify p.arc.target (p.source :: ·)) else none) found = some result ↔
      (∀ p ∈ arcs, p.arc.target < found.size) ∧
        arcs.foldl (fun found p => found.modify p.arc.target (p.source :: ·)) found = result := by
  induction arcs generalizing found with
  | nil => simp
  | cons p arcs ih =>
    rw [List.foldlM_cons, List.foldl_cons, List.forall_mem_cons]
    by_cases hp : p.arc.target < found.size
    · rw [if_pos hp, Option.bind_eq_bind, Option.bind_some, ih]
      simp [hp]
    · simp [hp]

theorem predecessors?_eq_some_iff {found : Array (List StateId)} :
    f.predecessors? = some found ↔
      (∀ s, ∀ a ∈ f.arcsFrom s, a.target < f.size) ∧ f.predecessors = found := by
  have harcs : (∀ p ∈ f.placedArcs, p.arc.target < f.size) ↔
      ∀ s, ∀ a ∈ f.arcsFrom s, a.target < f.size := by
    constructor
    · intro h s a ha
      exact h ⟨s, a⟩ (mem_placedArcs_iff.2 ha)
    · intro h p hp
      exact h p.source p.arc (mem_placedArcs_iff.1 hp)
  rw [predecessors?, foldlM_collect_eq_some_iff, Array.size_replicate, harcs, predecessors]

theorem accessible?_eq_some_iff {start : StateId} {marks : Array Bool} :
    f.accessible? start = some marks ↔
      (∀ t, f.Reaches start t → t < f.size) ∧ f.accessible start = marks := by
  simp only [accessible?, mark?_eq_some_iff, List.forall_mem_singleton, reaches_iff, accessible]

/-- Going backwards never leaves the network, so only the lists of predecessors can be missing. -/
theorem coaccessible?_eq_some_iff {marks : Array Bool} :
    f.coaccessible? = some marks ↔
      (∀ s, ∀ a ∈ f.arcsFrom s, a.target < f.size) ∧ f.coaccessible = marks := by
  have hback : ∀ r ∈ f.finalStates, ∀ t,
      ReflTransGen (LeadsTo fun u => f.predecessors.getD u []) r t → t < f.size := by
    intro r hr t hrt
    induction hrt with
    | refl => exact (mem_finalStates_iff.1 hr).lt_size
    | tail _ hstep ih => exact lt_size_of_mem_predecessors ih hstep
  simp only [coaccessible?, Option.bind_eq_bind, Option.bind_eq_some_iff, predecessors?_eq_some_iff,
    mark?_eq_some_iff]
  constructor
  · rintro ⟨before, ⟨harcs, rfl⟩, -, hmarks⟩
    exact ⟨harcs, hmarks⟩
  · rintro ⟨harcs, hmarks⟩
    exact ⟨f.predecessors, ⟨harcs, rfl⟩, hback, hmarks⟩

/-- The search for useful states has an answer exactly when its start and all targets of arcs are
states. -/
theorem useful?_eq_some_iff {start : StateId} {keep : Array Bool} :
    f.useful? start = some keep ↔
      start < f.size ∧ (∀ s, ∀ a ∈ f.arcsFrom s, a.target < f.size) ∧ f.useful start = keep := by
  simp only [useful?, Option.bind_eq_bind, Option.bind_eq_some_iff, accessible?_eq_some_iff,
    coaccessible?_eq_some_iff, Option.pure_def, Option.some.injEq]
  constructor
  · rintro ⟨forward, ⟨hreach, rfl⟩, backward, ⟨harcs, rfl⟩, hkeep⟩
    exact ⟨hreach start (Reaches.refl f start), harcs, hkeep⟩
  · rintro ⟨hstart, harcs, rfl⟩
    have hreach : ∀ t, f.Reaches start t → t < f.size := by
      rintro t ⟨arcs, hrun⟩
      induction hrun with
      | nil => exact hstart
      | cons leaves _ ih => exact ih (harcs _ _ leaves)
    exact ⟨_, ⟨hreach, rfl⟩, _, ⟨harcs, rfl⟩, rfl⟩

end Network

end WildcardNet
