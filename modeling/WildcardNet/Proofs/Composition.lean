import WildcardNet.Pass.Relabel
import WildcardNet.Pass.Restore
import WildcardNet.Proofs.Marking
import WildcardNet.Proofs.Runs
import WildcardNet.Reading
import WildcardNet.Report
/-!
# Demoting, composing and restoring

A composition step that compares labels as numbers knows nothing of wildcards. Demoting makes the
wildcards on the seam match whenever they could stand for one symbol, and restoring gives the joined
arcs the reading that the two arcs had together. Demotion, plain product and restoration thus
compose the relations that two networks stand for.
-/

namespace WildcardNet

/-! ### What restoring makes of an arc -/

namespace Wildcards

variable {w : Wildcards} {known : Label → Prop} {a b c : Arc}
  {i o m n x y z : Label}

theorem needsTwin_iff (hw : w.identity ≠ w.other) :
    w.needsTwin a = true ↔ a.input = w.other ∧ a.output = w.other := by
  -- The identity wildcard is asked for as well, which only matters if the two wildcards are one.
  simp only [needsTwin, Bool.and_eq_true, bne_iff_ne, beq_iff_eq]
  constructor
  · rintro ⟨⟨-, hi⟩, ho⟩
    exact ⟨hi, ho⟩
  · rintro ⟨hi, ho⟩
    exact ⟨⟨hi ▸ hw.symm, hi⟩, ho⟩

/-- The repaired arc, and its twin if it needs one. -/
def restoredArcs (w : Wildcards) (c : Arc) : List Arc :=
  w.repairArc c :: if w.needsTwin c then [w.twin c] else []

/-- One of the arcs that restoring makes of an arc reads the pair. -/
def ReadsRestored (w : Wildcards) (known : Label → Prop) (c : Arc) (x y : Label) : Prop :=
  ∃ b ∈ w.restoredArcs c, b.ReadsRelative w known (x, y)

theorem mem_restoredArcs_iff :
    b ∈ w.restoredArcs c ↔ b = w.repairArc c ∨ w.needsTwin c = true ∧ b = w.twin c := by
  rw [restoredArcs, List.mem_cons]
  split <;> simp_all

theorem target_of_mem_restoredArcs (h : b ∈ w.restoredArcs c) : b.target = c.target := by
  rcases mem_restoredArcs_iff.1 h with rfl | ⟨-, rfl⟩
  · simp only [repairArc]
    split
    · split <;> rfl
    · split <;> rfl
  · rfl

/-- After restoring, an arc stands for what its sides stand for. Two identity wildcards stand for
equal symbols, an identity wildcard and the other one for different symbols, and two other wildcards
for any. -/
theorem readsRestored_iff (hw : w.identity ≠ w.other) :
    w.ReadsRestored known c x y ↔
      (w.Covers known c.input x ∧ w.Covers known c.output y) ∧
        (c.input = w.identity → c.output = w.identity → x = y) ∧
        (c.input = w.identity → c.output = w.other → x ≠ y) ∧
        (c.input = w.other → c.output = w.identity → x ≠ y) := by
  by_cases htwin : w.needsTwin c = true
  · obtain ⟨hi, ho⟩ := (needsTwin_iff hw).1 htwin
    have hboth : w.ReadsRestored known c x y ↔
        w.Reads known w.other w.other x y ∨ w.Reads known w.identity w.identity x y := by
      simp [ReadsRestored, restoredArcs, htwin, repairArc, hi, ho, hw.symm, Arc.ReadsRelative, twin]
    -- Different symbols are read by the arc and equal ones by its twin, which leaves no condition.
    rw [hboth, reads_other hw, reads_identity, hi, ho, covers_other, covers_other]
    grind
  · have hone : w.ReadsRestored known c x y ↔ (w.repairArc c).ReadsRelative w known (x, y) := by
      simp [ReadsRestored, restoredArcs, htwin]
    have hnot : ¬ (c.input = w.other ∧ c.output = w.other) := fun h =>
      htwin ((needsTwin_iff hw).2 h)
    rw [hone]
    by_cases hi : c.input = w.identity <;> by_cases ho : c.output = w.identity
    · have hkeep : w.repairArc c = c := by simp [repairArc, hi, ho]
      rw [hkeep, Arc.ReadsRelative, reads_iff hw (by simp [isDisallowedPair, hi, ho])]
      simp [hi, ho, hw]
    · have hrepair : w.repairArc c = { c with input := w.other } := by simp [repairArc, hi, ho]
      rw [hrepair, Arc.ReadsRelative, reads_iff hw (by simp [isDisallowedPair, ho, hw.symm])]
      simp [hi, ho, hw, hw.symm, covers_identity, covers_other]
    · have hrepair : w.repairArc c = { c with output := w.other } := by simp [repairArc, hi, ho]
      rw [hrepair, Arc.ReadsRelative, reads_iff hw (by simp [isDisallowedPair, hi, hw.symm])]
      simp [hi, ho, covers_identity, covers_other]
    · have hkeep : w.repairArc c = c := by simp [repairArc, hi, ho]
      rw [hkeep, Arc.ReadsRelative, reads_iff hw (by simp [isDisallowedPair, hi, ho])]
      simp only [hi, ho, IsEmpty.forall_iff, implies_true, true_and, and_true]
      exact and_iff_left fun h₁ h₂ => absurd ⟨h₁, h₂⟩ hnot

/-! ### The seam -/

/-- Wherever three symbols are unknown, one of them differs from any two given ones. -/
theorem exists_unknown_ne {p q r : Label} (hp : w.Unknown known p) (hq : w.Unknown known q)
    (hr : w.Unknown known r) (hpq : p ≠ q) (hqr : q ≠ r) (hpr : p ≠ r) (x y : Label) :
    ∃ z, w.Unknown known z ∧ x ≠ z ∧ z ≠ y := by
  by_cases h₁ : x ≠ p ∧ p ≠ y
  · exact ⟨p, hp, h₁⟩
  · by_cases h₂ : x ≠ q ∧ q ≠ y
    · exact ⟨q, hq, h₂⟩
    · exact ⟨r, hr, by grind⟩

theorem demoteLabel_of_wildcard {label : Label} (h : w.isWildcard label = true) :
    w.demoteLabel label = w.other := by
  rcases isWildcard_eq_true_iff.1 h with rfl | rfl
  · simp [demoteLabel]
  · simp [demoteLabel]

theorem demoteLabel_of_not_wildcard {label : Label} (h : w.isWildcard label = false) :
    w.demoteLabel label = label := by
  simp [demoteLabel, (isWildcard_eq_false_iff.1 h).1]

/-- A symbol that a wildcard stands for is none that a network mentions. -/
theorem not_covers_of_wildcard {label : Label} (hlabel : w.isWildcard label = true)
    (hm : w.isWildcard m = false) (hknown : w.isConcrete m = true → known m) :
    ¬ (w.Covers known label z ∧ w.Covers known m z) := by
  rw [covers_of_wildcard hlabel, covers_of_not_wildcard hm]
  rintro ⟨⟨hconcrete, hunknown⟩, rfl⟩
  exact hunknown (hknown hconcrete)

theorem demoteLabel_ne {label : Label} (hlabel : w.isWildcard label = true)
    (hm : w.isWildcard m = false) : w.demoteLabel label ≠ w.demoteLabel m := by
  rw [demoteLabel_of_wildcard hlabel, demoteLabel_of_not_wildcard hm]
  exact (isWildcard_eq_false_iff.1 hm).2.symm

theorem reads_plain_output_iff (hw : w.identity ≠ w.other)
    (hpair : w.isDisallowedPair i m = false) (hm : w.isWildcard m = false) :
    w.Reads known i m x z ↔ w.Covers known i x ∧ z = m := by
  have hiff := isDisallowedPair_eq_false_iff.1 hpair
  obtain ⟨hid, hother⟩ := isWildcard_eq_false_iff.1 hm
  simp [reads_iff hw hpair, covers_of_not_wildcard hm, hiff, hid, hother]

theorem reads_plain_input_iff (hw : w.identity ≠ w.other)
    (hpair : w.isDisallowedPair m o = false) (hm : w.isWildcard m = false) :
    w.Reads known m o z y ↔ z = m ∧ w.Covers known o y := by
  obtain ⟨hid, hother⟩ := isWildcard_eq_false_iff.1 hm
  simp [reads_iff hw hpair, covers_of_not_wildcard hm, hid, hother]

/-- Two wildcards meet on the seam: the symbol in the middle is unknown, and each pair ties it to
the symbol on its other side or keeps it apart from that. -/
theorem exists_unknown_middle_iff (hw : w.identity ≠ w.other)
    (hfresh : ∀ x y, ∃ z, w.Unknown known z ∧ x ≠ z ∧ z ≠ y)
    (hleft : w.isDisallowedPair i m = false) (hright : w.isDisallowedPair n o = false)
    (hm : w.isWildcard m = true) (hn : w.isWildcard n = true) :
    (∃ z, w.Reads known i m x z ∧ w.Reads known n o z y) ↔
      (w.Covers known i x ∧ w.Covers known o y) ∧ (i = w.identity → o = w.identity → x = y) ∧
        (i = w.identity → o = w.other → x ≠ y) ∧ (i = w.other → o = w.identity → x ≠ y) := by
  have him := isDisallowedPair_eq_false_iff.1 hleft
  have hno := isDisallowedPair_eq_false_iff.1 hright
  simp only [reads_iff hw hleft, reads_iff hw hright, covers_of_wildcard hm, covers_of_wildcard hn]
  constructor
  · rintro ⟨z, ⟨⟨hx, hz⟩, heq, hne⟩, ⟨-, hy⟩, heq', hne'⟩
    refine ⟨⟨hx, hy⟩, fun hi ho => (heq hi).trans (heq' (hno.2 ho)), ?_, ?_⟩
    · intro hi ho
      have hother : n = w.other := by
        refine (isWildcard_eq_true_iff.1 hn).resolve_left fun h => hw ?_
        exact (hno.1 h).symm.trans ho
      rw [heq hi]
      exact hne' hother ho
    · intro hi ho
      have hother : m = w.other := by
        refine (isWildcard_eq_true_iff.1 hm).resolve_left fun h => hw ?_
        exact (him.2 h).symm.trans hi
      rw [← heq' (hno.2 ho)]
      exact hne hi hother
  · rintro ⟨⟨hx, hy⟩, hsame, hio, hoi⟩
    -- An identity wildcard fixes the symbol in the middle; if there is none, a fresh symbol will do.
    by_cases hi : i = w.identity
    · have hx' : w.Unknown known x := by rwa [hi, covers_identity] at hx
      exact ⟨x, ⟨⟨hx, hx'⟩, fun _ => rfl, fun h => absurd (hi.symm.trans h) hw⟩,
        ⟨hx', hy⟩, fun h => hsame hi (hno.1 h), fun _ h => hio hi h⟩
    · by_cases ho : o = w.identity
      · have hy' : w.Unknown known y := by rwa [ho, covers_identity] at hy
        exact ⟨y, ⟨⟨hx, hy'⟩, fun h => absurd h hi, fun h _ => hoi h ho⟩,
          ⟨hy', hy⟩, fun _ => rfl, fun _ h => absurd (ho.symm.trans h) hw⟩
      · obtain ⟨z, hz, hxz, hzy⟩ := hfresh x y
        exact ⟨z, ⟨⟨hx, hz⟩, fun h => absurd h hi, fun _ _ => hxz⟩,
          ⟨hz, hy⟩, fun h => absurd (hno.1 h) ho, fun _ _ => hzy⟩

/-- Two arcs can be read one after the other, over a common symbol in the middle, when their labels
on the seam are equal after demotion, and then they stand for what restoring makes of the joined
arc. -/
theorem exists_middle_iff (hw : w.identity ≠ w.other)
    (hfresh : ∀ x y, ∃ z, w.Unknown known z ∧ x ≠ z ∧ z ≠ y)
    (ha : w.isDisallowedPair a.input a.output = false)
    (hb : w.isDisallowedPair b.input b.output = false)
    (haknown : w.isConcrete a.output = true → known a.output)
    (hbknown : w.isConcrete b.input = true → known b.input)
    (hi : c.input = a.input) (ho : c.output = b.output) :
    (∃ z, a.ReadsRelative w known (x, z) ∧ b.ReadsRelative w known (z, y)) ↔
      w.demoteLabel a.output = w.demoteLabel b.input ∧ w.ReadsRestored known c x y := by
  simp only [Arc.ReadsRelative, readsRestored_iff hw, hi, ho]
  cases hma : w.isWildcard a.output <;> cases hmb : w.isWildcard b.input
  · have hai : a.input ≠ w.identity := fun h =>
      (isWildcard_eq_false_iff.1 hma).1 ((isDisallowedPair_eq_false_iff.1 ha).1 h)
    have hbo : b.output ≠ w.identity := fun h =>
      (isWildcard_eq_false_iff.1 hmb).1 ((isDisallowedPair_eq_false_iff.1 hb).2 h)
    simp only [reads_plain_output_iff hw ha hma, reads_plain_input_iff hw hb hmb,
      demoteLabel_of_not_wildcard hma, demoteLabel_of_not_wildcard hmb]
    constructor
    · rintro ⟨z, ⟨hx, rfl⟩, hz, hy⟩
      exact ⟨hz, ⟨hx, hy⟩, fun h => absurd h hai, fun h => absurd h hai, fun _ h => absurd h hbo⟩
    · rintro ⟨hm, ⟨hx, hy⟩, -⟩
      exact ⟨a.output, ⟨hx, rfl⟩, hm, hy⟩
  · have hne := (demoteLabel_ne hmb hma).symm
    simp only [reads_iff hw ha, reads_iff hw hb, hne, false_and, iff_false]
    rintro ⟨z, ⟨⟨-, hz⟩, -⟩, ⟨hz', -⟩, -⟩
    exact not_covers_of_wildcard hmb hma haknown ⟨hz', hz⟩
  · have hne := demoteLabel_ne hma hmb
    simp only [reads_iff hw ha, reads_iff hw hb, hne, false_and, iff_false]
    rintro ⟨z, ⟨⟨-, hz⟩, -⟩, ⟨hz', -⟩, -⟩
    exact not_covers_of_wildcard hma hmb hbknown ⟨hz, hz'⟩
  · rw [demoteLabel_of_wildcard hma, demoteLabel_of_wildcard hmb,
      exists_unknown_middle_iff hw hfresh ha hb hma hmb]
    exact (and_iff_right rfl).symm

end Wildcards

namespace Network

variable {f g h : Network} {w : Wildcards} {known : Label → Prop} {s t : StateId} {b : Arc}
  {pair : StateId → StateId → StateId}

/-! ### Restored networks -/

theorem mem_twins_iff {p : PlacedArc} :
    p ∈ h.twins w ↔ ∃ c ∈ h.arcsFrom p.source, w.needsTwin c = true ∧ p.arc = w.twin c := by
  simp only [twins, List.mem_map, List.mem_filter, mem_placedArcs_iff]
  constructor
  · rintro ⟨q, ⟨hq, htwin⟩, rfl⟩
    exact ⟨q.arc, hq, htwin, rfl⟩
  · rintro ⟨c, hc, htwin, hp⟩
    exact ⟨⟨p.source, c⟩, ⟨hc, htwin⟩, by rw [← hp]⟩

theorem admits_twins (hh : h.WellFormed) :
    ∀ p ∈ h.twins w, (h.mapArcs w.repairArc).admits p = true := by
  intro p hp
  obtain ⟨c, hc, -, harc⟩ := mem_twins_iff.1 hp
  have htarget := hh.target_lt hc
  rw [admits_iff, size_mapArcs, harc]
  exact ⟨lt_size_of_mem_arcsFrom hc, htarget⟩

theorem restore_result (hh : h.WellFormed) (w : Wildcards) : (h.restore w).result = .ok () := by
  rw [restore, Outcome.andThen_result_of_ok (insertStaged_result (admits_twins hh))]

theorem restore_network (hh : h.WellFormed) (w : Wildcards) :
    (h.restore w).network = (h.mapArcs w.repairArc).appendArcs (h.twins w) := by
  rw [restore, Outcome.andThen_network_of_ok (insertStaged_result (admits_twins hh)),
    insertStaged_network (admits_twins hh)]

theorem start_restore (hh : h.WellFormed) : (h.restore w).network.start = h.start := by
  rw [restore_network hh, start_appendArcs, start_mapArcs]

theorem size_restore (hh : h.WellFormed) : (h.restore w).network.size = h.size := by
  rw [restore_network hh, size_appendArcs, size_mapArcs]

theorem final?_restore (hh : h.WellFormed) (s : StateId) :
    (h.restore w).network.final? s = h.final? s := by
  rw [restore_network hh, final?_appendArcs, final?_mapArcs]

/-- Every arc is repaired in place, and the twins stand behind the arcs of their state. -/
theorem arcsFrom_restore (hh : h.WellFormed) (w : Wildcards) (s : StateId) :
    (h.restore w).network.arcsFrom s =
      (h.arcsFrom s).map w.repairArc ++ ((h.arcsFrom s).filter w.needsTwin).map w.twin := by
  rw [restore_network hh]
  rcases Nat.lt_or_ge s h.size with hs | hs
  · rw [arcsFrom_appendArcs (by simpa using hs), arcsFrom_mapArcs]
    have htwins : (h.twins w).filter (fun p => p.source == s) =
        ((h.placedArcs.filter fun p => p.source == s).filter fun p => w.needsTwin p.arc).map
          fun p => { p with arc := w.twin p.arc } := by
      rw [twins, List.filter_map, List.filter_comm]
      rfl
    rw [htwins, filter_source_placedArcs]
    simp [List.filter_map, Function.comp_def]
  · rw [arcsFrom_of_size_le hs, arcsFrom_of_size_le (by simpa using hs)]
    rfl

theorem mem_arcsFrom_restore_iff (hh : h.WellFormed) :
    b ∈ (h.restore w).network.arcsFrom s ↔ ∃ c ∈ h.arcsFrom s, b ∈ w.restoredArcs c := by
  rw [restore_network hh, mem_arcsFrom_appendArcs (admits_twins hh), arcsFrom_mapArcs,
    mem_twins_iff, List.mem_map, ← exists_or]
  refine exists_congr fun c => ?_
  rw [Wildcards.mem_restoredArcs_iff, and_or_left, eq_comm]

theorem isFinal_restore_iff (hh : h.WellFormed) :
    (h.restore w).network.IsFinal s ↔ h.IsFinal s :=
  isFinal_congr (final?_restore hh s)

/-- A string is read on the restored network as it is read by the arcs that restoring makes of the
network's own. -/
theorem acceptsFrom_restore_iff (hh : h.WellFormed) {string : List (Label × Label)} :
    (h.restore w).network.AcceptsFrom (Arc.ReadsRelative w known) s string ↔
      h.AcceptsFrom (fun c p => w.ReadsRestored known c p.1 p.2) s string := by
  constructor
  · refine AcceptsFrom.of_steps (fun s => (isFinal_restore_iff hh).1) ?_
    intro pair _ s b hb hread
    obtain ⟨c, hc, hbc⟩ := (mem_arcsFrom_restore_iff hh).1 hb
    exact ⟨c, hc, ⟨b, hbc, hread⟩, (Wildcards.target_of_mem_restoredArcs hbc).symm⟩
  · refine AcceptsFrom.of_steps (fun s => (isFinal_restore_iff hh).2) ?_
    rintro pair _ s c hc ⟨b, hbc, hread⟩
    exact ⟨b, (mem_arcsFrom_restore_iff hh).2 ⟨c, hc, hbc⟩, hread,
      Wildcards.target_of_mem_restoredArcs hbc⟩

/-! ### Products -/

/-- The states of the third network are pairs of states of the other two, the start is the pair of
their starts, a pair is final when both states are, and the arcs out of a pair join two arcs, one
out of each state, that have the same label where they meet. -/
structure IsProduct (f g h : Network) (pair : StateId → StateId → StateId) : Prop where
  wellFormed : h.WellFormed
  start_iff {k : StateId} : k ∈ h.start ↔ ∃ s ∈ f.start, ∃ t ∈ g.start, k = pair s t
  final_iff {s t : StateId} : s < f.size → t < g.size →
    (h.IsFinal (pair s t) ↔ f.IsFinal s ∧ g.IsFinal t)
  arc_iff {s t : StateId} : s < f.size → t < g.size → ∀ {i o : Label} {k : StateId},
    (∃ c ∈ h.arcsFrom (pair s t), c.input = i ∧ c.output = o ∧ c.target = k) ↔
      ∃ a ∈ f.arcsFrom s, ∃ b ∈ g.arcsFrom t,
        a.output = b.input ∧ a.input = i ∧ b.output = o ∧ pair a.target b.target = k

/-- The state of the product that stands for a pair of states. -/
def productState (f g : Network) (s t : StateId) : State where
  final := if s ∈ f.finalStates ∧ t ∈ g.finalStates then Weight.one else Weight.zero
  arcs := (f.arcsFrom s).flatMap fun a =>
    ((g.arcsFrom t).filter fun b => a.output == b.input).map fun b =>
      ⟨a.input, b.output, Weight.one, a.target * g.size + b.target⟩

/-- The product of two networks, without their weights. -/
def product (f g : Network) : Network where
  states := Array.ofFn fun k : Fin (f.size * g.size) =>
    productState f g (k / g.size) (k % g.size)
  start := f.start.bind fun s => g.start.map fun t => s * g.size + t

theorem size_product (f g : Network) : (f.product g).size = f.size * g.size := by
  simp [product, size]

theorem pair_lt_size_product (hs : s < f.size) (ht : t < g.size) :
    s * g.size + t < (f.product g).size := by
  have hrow : (s + 1) * g.size ≤ f.size * g.size := Nat.mul_le_mul_right _ hs
  rw [Nat.add_one_mul] at hrow
  rw [size_product]
  exact Nat.lt_of_lt_of_le (Nat.add_lt_add_left ht _) hrow

theorem getElem?_product (hs : s < f.size) (ht : t < g.size) :
    (f.product g).states[s * g.size + t]? = some (productState f g s t) := by
  have hlt : s * g.size + t < f.size * g.size := size_product f g ▸ pair_lt_size_product hs ht
  have hdiv : (s * g.size + t) / g.size = s := by
    rw [Nat.mul_comm, Nat.mul_add_div (Nat.zero_lt_of_lt ht), Nat.div_eq_of_lt ht, Nat.add_zero]
  have hmod : (s * g.size + t) % g.size = t := by
    rw [Nat.mul_comm, Nat.mul_add_mod, Nat.mod_eq_of_lt ht]
  simp [product, hlt, hdiv, hmod]

theorem mem_arcs_productState_iff {c : Arc} :
    c ∈ (productState f g s t).arcs ↔ ∃ a ∈ f.arcsFrom s, ∃ b ∈ g.arcsFrom t,
      a.output = b.input ∧ c = ⟨a.input, b.output, Weight.one, a.target * g.size + b.target⟩ := by
  simp only [productState, List.mem_flatMap, List.mem_map, List.mem_filter, beq_iff_eq]
  refine exists_congr fun a => and_congr_right fun _ => exists_congr fun b => ?_
  rw [and_assoc, eq_comm (a := c)]

theorem isFinal_productState_iff :
    (productState f g s t).isFinal = true ↔ f.IsFinal s ∧ g.IsFinal t := by
  have hone : Weight.one.isZero = false := by decide
  have hzero : Weight.zero.isZero = true := by decide
  rw [← mem_finalStates_iff, ← mem_finalStates_iff, State.isFinal, productState]
  split <;> simp_all

theorem isProduct_product (hf : f.WellFormed) (hg : g.WellFormed) :
    IsProduct f g (f.product g) fun s t => s * g.size + t where
  wellFormed := by
    constructor
    · intro k hk
      simp only [product, Option.mem_def, Option.bind_eq_some_iff, Option.map_eq_some_iff] at hk
      obtain ⟨s, hs, t, ht, rfl⟩ := hk
      exact pair_lt_size_product (hf.1 s hs) (hg.1 t ht)
    · intro st hst c hc
      obtain ⟨k, rfl⟩ := Array.mem_ofFn.1 hst
      obtain ⟨a, ha, b, hb, -, rfl⟩ := mem_arcs_productState_iff.1 hc
      exact pair_lt_size_product (hf.target_lt ha) (hg.target_lt hb)
  start_iff := by
    intro k
    simp only [product, Option.mem_def, Option.bind_eq_some_iff, Option.map_eq_some_iff]
    simp only [eq_comm]
  final_iff hs ht := by
    simp only [IsFinal, getElem?_product hs ht, Option.some.injEq, exists_eq_left']
    exact isFinal_productState_iff
  arc_iff hs ht := by
    intro i o k
    rw [arcsFrom_of_getElem? (getElem?_product hs ht)]
    constructor
    · rintro ⟨c, hc, rfl, rfl, rfl⟩
      obtain ⟨a, ha, b, hb, hseam, rfl⟩ := mem_arcs_productState_iff.1 hc
      exact ⟨a, ha, b, hb, hseam, rfl, rfl, rfl⟩
    · rintro ⟨a, ha, b, hb, hseam, rfl, rfl, rfl⟩
      exact ⟨_, mem_arcs_productState_iff.2 ⟨a, ha, b, hb, hseam, rfl⟩, rfl, rfl, rfl⟩

/-! ### Composition -/

theorem WellFormed.demote (hf : f.WellFormed) (w : Wildcards) (side : Side) :
    (f.demote w side).network.WellFormed := by
  refine wellFormed_of_arcsFrom (by simpa [Network.demote] using hf.1) ?_
  intro s b hb
  simp only [Network.demote, arcsFrom_mapArcs, List.mem_map] at hb
  obtain ⟨a, ha, rfl⟩ := hb
  have htarget : (w.demoteArc side a).target = a.target := by cases side <;> rfl
  simpa [Network.demote, htarget] using hf.target_lt ha

section

variable (hprod : IsProduct (f.demote w .output).network (g.demote w .input).network h pair)
  (hw : w.identity ≠ w.other) (hfresh : ∀ x y, ∃ z, w.Unknown known z ∧ x ≠ z ∧ z ≠ y)
  (hfpairs : ∀ s, ∀ a ∈ f.arcsFrom s, w.isDisallowedPair a.input a.output = false)
  (hgpairs : ∀ s, ∀ b ∈ g.arcsFrom s, w.isDisallowedPair b.input b.output = false)
  (hfknown : f.MentionsOnly w known) (hgknown : g.MentionsOnly w known)

include hprod hw hfresh hfpairs hgpairs hfknown hgknown

/-- What can be read out of a pair of states, over an arc of the product of the demoted networks, is
what the two networks read one after the other. -/
theorem IsProduct.exists_step_iff (hs : s < f.size) (ht : t < g.size) {x y : Label}
    {k : StateId} :
    (∃ c ∈ h.arcsFrom (pair s t), w.ReadsRestored known c x y ∧ c.target = k) ↔
      ∃ z, ∃ a ∈ f.arcsFrom s, ∃ b ∈ g.arcsFrom t, a.ReadsRelative w known (x, z) ∧
        b.ReadsRelative w known (z, y) ∧ pair a.target b.target = k := by
  have harc {i o : Label} {k : StateId} :
      (∃ c ∈ h.arcsFrom (pair s t), c.input = i ∧ c.output = o ∧ c.target = k) ↔
        ∃ a ∈ f.arcsFrom s, ∃ b ∈ g.arcsFrom t, w.demoteLabel a.output = w.demoteLabel b.input ∧
          a.input = i ∧ b.output = o ∧ pair a.target b.target = k := by
    have h := hprod.arc_iff (s := s) (t := t) (by simpa [demote]) (by simpa [demote])
      (i := i) (o := o) (k := k)
    simpa [demote, Wildcards.demoteArc, Arc.setLabel, Arc.label] using h
  have hmiddle {a b c : Arc} (ha : a ∈ f.arcsFrom s) (hb : b ∈ g.arcsFrom t)
      (hi : c.input = a.input) (ho : c.output = b.output) :=
    Wildcards.exists_middle_iff (x := x) (y := y) hw hfresh (hfpairs s a ha) (hgpairs t b hb)
      (forall_arc_iff.1 hfknown s a ha).2 (forall_arc_iff.1 hgknown t b hb).1 hi ho
  constructor
  · rintro ⟨c, hc, hread, rfl⟩
    obtain ⟨a, ha, b, hb, hseam, hi, ho, htarget⟩ := harc.1 ⟨c, hc, rfl, rfl, rfl⟩
    obtain ⟨z, hxz, hzy⟩ := (hmiddle ha hb hi.symm ho.symm).2 ⟨hseam, hread⟩
    exact ⟨z, a, ha, b, hb, hxz, hzy, htarget⟩
  · rintro ⟨z, a, ha, b, hb, hxz, hzy, rfl⟩
    have hseam := ((hmiddle (c := ⟨a.input, b.output, a.weight, a.target⟩) ha hb rfl rfl).1
      ⟨z, hxz, hzy⟩).1
    obtain ⟨c, hc, hi, ho, htarget⟩ := harc.2 ⟨a, ha, b, hb, hseam, rfl, rfl, rfl⟩
    exact ⟨c, hc, ((hmiddle ha hb hi ho).1 ⟨z, hxz, hzy⟩).2, htarget⟩

/-- What can be read on a whole run from a pair of states is what the two networks read one after
the other, over a string in the middle. The induction is on the string, and a step of it takes one
arc of the product and one arc of each network. -/
theorem IsProduct.acceptsFrom_iff (hf : f.WellFormed) (hg : g.WellFormed)
    {u v : List Label} (hlen : u.length = v.length) (hs : s < f.size) (ht : t < g.size) :
    h.AcceptsFrom (fun c p => w.ReadsRestored known c p.1 p.2) (pair s t) (u.zip v) ↔
      ∃ z, z.length = u.length ∧ f.AcceptsFrom (Arc.ReadsRelative w known) s (u.zip z) ∧
        g.AcceptsFrom (Arc.ReadsRelative w known) t (z.zip v) := by
  have hstep {s t : StateId} (hs : s < f.size) (ht : t < g.size) {x y : Label} {k : StateId} :=
    hprod.exists_step_iff hw hfresh hfpairs hgpairs hfknown hgknown hs ht (x := x) (y := y) (k := k)
  induction u generalizing v s t with
  | nil =>
    have hfinal : h.IsFinal (pair s t) ↔ f.IsFinal s ∧ g.IsFinal t := by
      rw [hprod.final_iff (by simpa [demote]) (by simpa [demote])]
      exact and_congr (isFinal_congr (final?_mapArcs ..)) (isFinal_congr (final?_mapArcs ..))
    simp [acceptsFrom_nil_iff, hfinal]
  | cons x u ih =>
    obtain ⟨y, v, rfl⟩ := List.exists_cons_of_length_eq_add_one hlen.symm
    have hrest : u.length = v.length := by simpa using hlen
    rw [List.zip_cons_cons, acceptsFrom_cons_iff]
    constructor
    · rintro ⟨c, hc, hread, haccepts⟩
      obtain ⟨z, a, ha, b, hb, hxz, hzy, htarget⟩ := (hstep hs ht).1 ⟨c, hc, hread, rfl⟩
      rw [← htarget] at haccepts
      obtain ⟨zs, hzs, hfrest, hgrest⟩ :=
        (ih hrest (hf.target_lt ha) (hg.target_lt hb)).1 haccepts
      exact ⟨z :: zs, by simp [hzs], .cons ha hxz hfrest, .cons hb hzy hgrest⟩
    · rintro ⟨zs, hzs, hfaccepts, hgaccepts⟩
      obtain ⟨z, zs, rfl⟩ := List.exists_cons_of_length_eq_add_one hzs
      rw [List.zip_cons_cons, acceptsFrom_cons_iff] at hfaccepts hgaccepts
      obtain ⟨a, ha, hxz, hfrest⟩ := hfaccepts
      obtain ⟨b, hb, hzy, hgrest⟩ := hgaccepts
      obtain ⟨c, hc, hread, htarget⟩ := (hstep hs ht).2 ⟨z, a, ha, b, hb, hxz, hzy, rfl⟩
      refine ⟨c, hc, hread, ?_⟩
      rw [htarget]
      exact (ih hrest (hf.target_lt ha) (hg.target_lt hb)).2
        ⟨zs, by simpa using hzs, hfrest, hgrest⟩

end

/-- Two networks are composed by demoting their wildcards along the seam, forming the plain product
and restoring its wildcards, provided that three symbols are unknown. Restoring succeeds, and the
result relates two strings when the first network relates one of them to some string that the second
network relates to the other. -/
theorem accepts_restore_product_iff (hw : w.check = .ok ()) (hf : f.WellFormed)
    (hg : g.WellFormed) (hfpairs : f.disallowedPairs w = []) (hgpairs : g.disallowedPairs w = [])
    (hfknown : f.MentionsOnly w known) (hgknown : g.MentionsOnly w known) {p q r : Label}
    (hp : w.Unknown known p) (hq : w.Unknown known q) (hr : w.Unknown known r)
    (hpq : p ≠ q) (hqr : q ≠ r) (hpr : p ≠ r)
    (hprod : IsProduct (f.demote w .output).network (g.demote w .input).network h pair)
    {u v : List Label} (hlen : u.length = v.length) :
    (h.restore w).result = .ok () ∧
      ((h.restore w).network.Accepts (Arc.ReadsRelative w known) (u.zip v) ↔
        ∃ z, z.length = u.length ∧ f.Accepts (Arc.ReadsRelative w known) (u.zip z) ∧
          g.Accepts (Arc.ReadsRelative w known) (z.zip v)) := by
  obtain ⟨-, -, hne⟩ := Wildcards.check_eq_ok_iff.1 hw
  have hfallowed := forall_arc_iff.1 (disallowedPairs_eq_nil_iff.1 hfpairs)
  have hgallowed := forall_arc_iff.1 (disallowedPairs_eq_nil_iff.1 hgpairs)
  have hfresh := Wildcards.exists_unknown_ne hp hq hr hpq hqr hpr
  have hfrom {s t : StateId} (hs : s ∈ f.start) (ht : t ∈ g.start) :=
    hprod.acceptsFrom_iff hne hfresh hfallowed hgallowed hfknown hgknown hf hg hlen
      (hf.1 s hs) (hg.1 t ht)
  have hstart : (h.restore w).network.start = h.start := by
    rw [restore_network hprod.wellFormed, start_appendArcs, start_mapArcs]
  refine ⟨restore_result hprod.wellFormed w, ?_⟩
  simp only [Accepts, hstart, acceptsFrom_restore_iff hprod.wellFormed]
  constructor
  · rintro ⟨k, hk, haccepts⟩
    obtain ⟨s, hs, t, ht, rfl⟩ := hprod.start_iff.1 hk
    obtain ⟨z, hz, hfz, hgz⟩ := (hfrom hs ht).1 haccepts
    exact ⟨z, hz, ⟨s, hs, hfz⟩, t, ht, hgz⟩
  · rintro ⟨z, hz, ⟨s, hs, hfz⟩, t, ht, hgz⟩
    exact ⟨pair s t, hprod.start_iff.2 ⟨s, hs, t, ht, rfl⟩, (hfrom hs ht).2 ⟨z, hz, hfz, hgz⟩⟩

/-- Composing two networks in which every kind of wildcard pair meets every other on the seam. -/
theorem accepts_restore_product_wildcards :
    let f : Network := ⟨#[⟨Weight.one, [⟨100, 100, Weight.one, 0⟩, ⟨101, 101, Weight.one, 0⟩,
      ⟨1, 101, Weight.one, 0⟩, ⟨101, 1, Weight.one, 0⟩]⟩], some 0⟩
    let w : Wildcards := ⟨100, 101⟩
    let known : Label → Prop := fun c => c = 1
    let h := (f.demote w .output).network.product (f.demote w .input).network
    w.check = .ok () ∧ f.WellFormed ∧ f.disallowedPairs w = [] ∧ f.MentionsOnly w known ∧
      w.Unknown known 5 ∧ w.Unknown known 6 ∧ w.Unknown known 7 ∧
      (∃ pair, IsProduct (f.demote w .output).network (f.demote w .input).network h pair) ∧
      (h.restore w).result = .ok () ∧
      ((h.restore w).network.Accepts (Arc.ReadsRelative w known) [(5, 5), (5, 6), (1, 7), (1, 1)] ↔
        ∃ z, z.length = 4 ∧ f.Accepts (Arc.ReadsRelative w known) ([5, 5, 1, 1].zip z) ∧
          f.Accepts (Arc.ReadsRelative w known) (z.zip [5, 6, 7, 1])) := by
  intro f w known h
  have hw : w.check = .ok () := by decide
  have hf : f.WellFormed := isWellFormed_eq_true_iff.1 (by decide)
  have hpairs : f.disallowedPairs w = [] := by decide
  have hknown : f.MentionsOnly w known := by
    simp only [MentionsOnly, f]
    decide
  have h5 : w.Unknown known 5 := by decide
  have h6 : w.Unknown known 6 := by decide
  have h7 : w.Unknown known 7 := by decide
  have hprod := isProduct_product (hf.demote w .output) (hf.demote w .input)
  exact ⟨hw, hf, hpairs, hknown, h5, h6, h7, ⟨_, hprod⟩,
    accepts_restore_product_iff hw hf hf hpairs hpairs hknown hknown h5 h6 h7 (by decide)
      (by decide) (by decide) hprod (u := [5, 5, 1, 1]) (v := [5, 6, 7, 1]) rfl⟩

end Network

end WildcardNet
