import WildcardNet.Proofs.ArcOrder
/-!
# Synchronizing is a join

What synchronizing leaves can be said without tables, staged arcs and sinks. Take every way to
follow three arcs of the network whose first arc copies its label or writes nothing and whose second
arc is a separator. Put one arc beside the old ones for each, delete everything that reads the
separator, and trim: up to the order of arcs this is the synchronized network, and as many arcs are
linked as there are such ways.
-/

namespace WildcardNet

/-- Three arcs that follow each other. -/
structure Triple where
  first : Arc
  bridge : Arc
  last : Arc
deriving DecidableEq

namespace Triple

/-- The first arc copies its label or writes nothing, and the second reads the separator. -/
def Joins (rule : RuleMarks) (x : Triple) : Prop :=
  (x.first.input = x.first.output ∨ rule.weaken x.first.output = Label.epsilon) ∧
    x.bridge.input = rule.separator

instance (rule : RuleMarks) (x : Triple) : Decidable (x.Joins rule) :=
  inferInstanceAs (Decidable (_ ∧ _))

/-- One arc for all three, which reads what the first reads and writes what the last writes. -/
def joint (rule : RuleMarks) (w : Wildcards) (x : Triple) : Arc :=
  let labels := w.unbind (rule.weaken x.first.input) (rule.weaken x.last.output)
  ⟨labels.1, labels.2, Weight.one, x.last.target⟩

end Triple

theorem flatMap_filter {α β : Type} (p : α → Bool) (g : α → List β) (items : List α) :
    (items.filter p).flatMap g = items.flatMap fun a => if p a then g a else [] := by
  induction items with
  | nil => rfl
  | cons a items ih => cases ha : p a <;> simp [ha, ih]

namespace Network

variable {f g : Network} {rule : RuleMarks} {w : Wildcards} {s : StateId}

/-! ### The join -/

/-- All ways to go on from an arc by two more. -/
def triplesAfter (f : Network) (a : Arc) : List Triple :=
  (f.arcsFrom a.target).flatMap fun b => (f.arcsFrom b.target).map fun c => ⟨a, b, c⟩

/-- The triples that begin with one of the arcs and join. -/
def joinsAfter (f : Network) (rule : RuleMarks) (arcs : List Arc) : List Triple :=
  (arcs.flatMap f.triplesAfter).filter fun x => x.Joins rule

/-- All triples of the network that join. -/
def joins (f : Network) (rule : RuleMarks) : List Triple :=
  f.joinsAfter rule (f.states.toList.flatMap State.arcs)

/-- The arcs of a state and the joints of the triples that begin with one of them, less those that
read the separator. -/
def joinedArcs (f : Network) (rule : RuleMarks) (w : Wildcards) (arcs : List Arc) : List Arc :=
  (arcs ++ (f.joinsAfter rule arcs).map (Triple.joint rule w)).filter fun a =>
    a.input ≠ rule.separator

def joined (f : Network) (rule : RuleMarks) (w : Wildcards) : Network :=
  { f with states := f.states.map fun st => { st with arcs := f.joinedArcs rule w st.arcs } }

@[simp] theorem size_joined (f : Network) (rule : RuleMarks) (w : Wildcards) :
    (f.joined rule w).size = f.size := by
  simp [joined, size]

@[simp] theorem final?_joined (f : Network) (rule : RuleMarks) (w : Wildcards) (s : StateId) :
    (f.joined rule w).final? s = f.final? s := by
  simp [joined, final?, Option.map_map, Function.comp_def]

theorem arcsFrom_joined (f : Network) (rule : RuleMarks) (w : Wildcards) (s : StateId) :
    (f.joined rule w).arcsFrom s = f.joinedArcs rule w (f.arcsFrom s) := by
  cases h : f.states[s]? <;> simp [joined, arcsFrom, arcs?, h, joinedArcs, joinsAfter]

/-! ### Links are joints -/

/-- The links that begin with an arc, if it can be a first one, are the joints of its triples. -/
theorem linksFrom_eq (rule : RuleMarks) (w : Wildcards) (f : Network) (p : PlacedArc) :
    (if rule.opens p.arc then rule.linksFrom w f p else []) =
      (((f.triplesAfter p.arc).filter fun x => x.Joins rule).map (Triple.joint rule w)).map
        (PlacedArc.mk p.source) := by
  have hopens : rule.opens p.arc = true ↔
      p.arc.input = p.arc.output ∨ rule.weaken p.arc.output = Label.epsilon := by
    simp [RuleMarks.opens, Arc.isIdentity]
  have hlink : ∀ b c, PlacedArc.mk p.source (Triple.joint rule w ⟨p.arc, b, c⟩) = rule.link w p c :=
    fun _ _ => rfl
  simp only [triplesAfter, List.filter_flatMap, List.filter_map, List.map_flatMap, List.map_map,
    Function.comp_def, hlink, Triple.Joins, ← hopens]
  by_cases hp : rule.opens p.arc = true
  · simp only [hp, if_true, RuleMarks.linksFrom, flatMap_filter, true_and]
    congr 1
    funext b
    by_cases hb : b.input = rule.separator
    · simp [hb]
    · simp [hb]
  · simp [hp]

/-- All links, each beside the arc that it begins with. -/
theorem allLinks_eq (rule : RuleMarks) (w : Wildcards) (f : Network) :
    rule.allLinks w f = f.placedArcs.flatMap fun p =>
      (((f.triplesAfter p.arc).filter fun x => x.Joins rule).map (Triple.joint rule w)).map
        (PlacedArc.mk p.source) := by
  simp only [RuleMarks.allLinks, flatMap_filter, linksFrom_eq]

theorem filter_source_allLinks (rule : RuleMarks) (w : Wildcards) (f : Network) (s : StateId) :
    ((rule.allLinks w f).filter fun p => p.source == s).map PlacedArc.arc =
      (f.joinsAfter rule (f.arcsFrom s)).map (Triple.joint rule w) := by
  rw [allLinks_eq, filter_source_flatMap_placedArcs f fun p =>
    ((f.triplesAfter p.arc).filter fun x => x.Joins rule).map (Triple.joint rule w)]
  rw [joinsAfter, List.filter_flatMap, List.map_flatMap]

theorem map_arc_placedArcs (f : Network) :
    f.placedArcs.map PlacedArc.arc = f.states.toList.flatMap State.arcs := by
  conv_rhs => rw [← List.zipIdx_map_fst 0 f.states.toList, List.flatMap_map]
  simp [placedArcs, List.map_flatMap, Function.comp_def]

theorem length_allLinks (rule : RuleMarks) (w : Wildcards) (f : Network) :
    (rule.allLinks w f).length = (f.joins rule).length := by
  rw [allLinks_eq, joins, joinsAfter, ← map_arc_placedArcs, List.filter_flatMap, List.flatMap_map]
  simp only [List.length_flatMap, List.length_map]

/-! ### Sorting does not matter -/

theorem perm_triplesAfter (h : f.SameUpToOrder g) (a : Arc) :
    (f.triplesAfter a).Perm (g.triplesAfter a) := by
  apply (h.arcs_related a.target).flatMap
  intro b _
  exact (h.arcs_related b.target).map _

theorem perm_joinsAfter (h : f.SameUpToOrder g) (rule : RuleMarks) {xs ys : List Arc}
    (hperm : xs.Perm ys) : (f.joinsAfter rule xs).Perm (g.joinsAfter rule ys) := by
  apply List.Perm.filter
  exact hperm.flatMap fun a _ => perm_triplesAfter h a

theorem sortArcs_sameUpToOrder (f : Network) : f.sortArcs.SameUpToOrder f := by
  constructor
  · rfl
  · exact size_sortArcs f
  · exact final?_sortArcs f
  · intro s
    rw [arcsFrom_sortArcs]
    exact List.mergeSort_perm _ _

theorem perm_joins_sortArcs (f : Network) (rule : RuleMarks) :
    (f.sortArcs.joins rule).Perm (f.joins rule) := by
  apply perm_joinsAfter (sortArcs_sameUpToOrder f)
  simp only [sortArcs, Array.toList_map, List.flatMap_map]
  apply List.Perm.flatMap_left
  intro st _
  exact List.mergeSort_perm _ _

/-! ### Synchronizing -/

theorem arcsFrom_withLinks (f : Network) (rule : RuleMarks) (w : Wildcards) (s : StateId) :
    (f.withLinks rule w).arcsFrom s = f.sortArcs.arcsFrom s ++
      (f.sortArcs.joinsAfter rule (f.sortArcs.arcsFrom s)).map (Triple.joint rule w) := by
  rcases Nat.lt_or_ge s f.sortArcs.size with hs | hs
  · rw [withLinks, arcsFrom_appendArcs hs, filter_source_allLinks]
  · have hs' : (f.withLinks rule w).size ≤ s := by rwa [withLinks, size_appendArcs]
    rw [arcsFrom_of_size_le hs, arcsFrom_of_size_le hs']
    rfl

/-- Without what reads the separator, the network with its links is the join. -/
theorem deleteArcs_withLinks_sameUpToOrder (f : Network) (rule : RuleMarks) (w : Wildcards) :
    ((f.withLinks rule w).deleteArcs fun a => a.input == rule.separator).SameUpToOrder
      (f.joined rule w) := by
  constructor
  · rfl
  · rw [size_deleteArcs, withLinks, size_appendArcs, size_sortArcs, size_joined]
  · intro s
    rw [final?_deleteArcs, withLinks, final?_appendArcs, final?_sortArcs, final?_joined]
  · intro s
    have harcs := (sortArcs_sameUpToOrder f).arcs_related s
    have hjoins := perm_joinsAfter (sortArcs_sameUpToOrder f) rule harcs
    have hspared : ∀ a : Arc,
        (!(a.input == rule.separator)) = decide (a.input ≠ rule.separator) := by
      intro a
      by_cases ha : a.input = rule.separator <;> simp [ha]
    rw [arcsFrom_deleteArcs, arcsFrom_joined, arcsFrom_withLinks, joinedArcs]
    simp only [hspared]
    exact (harcs.append (hjoins.map _)).filter _

theorem WellFormed.joined (hf : f.WellFormed) (rule : RuleMarks) (w : Wildcards) :
    (f.joined rule w).WellFormed :=
  (deleteArcs_withLinks_sameUpToOrder f rule w).wellFormed ((hf.withLinks rule w).deleteArcs _)

/-- Up to the order of arcs, synchronizing trims the join. -/
theorem synchronize_network_sameUpToOrder (hf : f.WellFormed) (rule : RuleMarks) (w : Wildcards) :
    (f.synchronize rule w).network.SameUpToOrder (f.joined rule w).trim.network := by
  have hlinks := hf.withLinks rule w
  rw [synchronize_network hf, pruneArcs_network_eq_trim hlinks]
  exact (deleteArcs_withLinks_sameUpToOrder f rule w).trim (hlinks.deleteArcs _)

/-- The last event of a synchronization gives the number of links. -/
theorem exists_getLast?_synchronize (hf : f.WellFormed) (rule : RuleMarks) (w : Wildcards) :
    ∃ separators, (f.synchronize rule w).events.getLast? =
      some (.ruleSynchronized (rule.allLinks w f.sortArcs).length separators
        (f.synchronize rule w).network.size) := by
  have hprune := pruneArcs_result (hf.withLinks rule w) fun a => a.input == rule.separator
  obtain ⟨events, heq⟩ := exists_synchronize_eq hf rule w
  refine ⟨(f.withLinks rule w).countArcs fun a => a.input == rule.separator, ?_⟩
  rw [heq]
  simp [Outcome.after, Outcome.andThen, hprune]

/-- Synchronizing a well-formed network succeeds. Up to the order of arcs it leaves the trimmed join
of the network, and it reports as many links as the network has triples that join. -/
theorem synchronize_sameUpToOrder_joined (hf : f.WellFormed) (rule : RuleMarks) (w : Wildcards) :
    (f.synchronize rule w).result = .ok () ∧ (f.joined rule w).trim.result = .ok () ∧
      (f.synchronize rule w).network.SameUpToOrder (f.joined rule w).trim.network ∧
        ∃ separators, (f.synchronize rule w).events.getLast? =
          some (.ruleSynchronized (f.joins rule).length separators
            (f.synchronize rule w).network.size) := by
  have hlinks := hf.withLinks rule w
  have hdelete := hlinks.deleteArcs fun a => a.input == rule.separator
  have hjoined := deleteArcs_withLinks_sameUpToOrder f rule w
  refine ⟨synchronize_result hf rule w, trim_result (hjoined.wellFormed hdelete), ?_, ?_⟩
  · rw [synchronize_network hf, pruneArcs_network_eq_trim hlinks]
    exact hjoined.trim hdelete
  · rw [← (perm_joins_sortArcs f rule).length_eq, ← length_allLinks rule w]
    exact exists_getLast?_synchronize hf rule w

/-- A separator on a loop that writes a hard epsilon is the first, the second and the third arc of
one triple. Each of the three joints that begin with it reads the separator and is deleted. -/
theorem synchronize_sameUpToOrder_joined_loops :
    let f : Network := ⟨#[⟨Weight.zero, [⟨200, 201, Weight.one, 0⟩, ⟨5, 201, Weight.one, 0⟩,
      ⟨100, 100, Weight.one, 1⟩]⟩, ⟨Weight.one, []⟩], some 0⟩
    let rule : RuleMarks := ⟨200, 201⟩
    let w : Wildcards := ⟨100, 101⟩
    let loop : Arc := ⟨200, 201, Weight.one, 0⟩
    f.WellFormed ∧ (f.joins rule).length = 6 ∧ ⟨loop, loop, loop⟩ ∈ f.joins rule ∧
      f.joined rule w = ⟨#[⟨Weight.zero, [⟨5, 201, Weight.one, 0⟩, ⟨100, 100, Weight.one, 1⟩,
        ⟨5, 0, Weight.one, 0⟩, ⟨5, 0, Weight.one, 0⟩, ⟨5, 101, Weight.one, 1⟩]⟩,
        ⟨Weight.one, []⟩], some 0⟩ ∧
      (f.synchronize rule w).result = .ok () ∧
      (f.synchronize rule w).network.SameUpToOrder (f.joined rule w).trim.network ∧
      ∃ separators, (f.synchronize rule w).events.getLast? =
        some (.ruleSynchronized 6 separators (f.synchronize rule w).network.size) := by
  intro f rule w loop
  have hf : f.WellFormed := isWellFormed_eq_true_iff.1 (by decide)
  have hsix : (f.joins rule).length = 6 := by decide
  obtain ⟨hresult, -, hsame, hlast⟩ := synchronize_sameUpToOrder_joined hf rule w
  rw [hsix] at hlast
  exact ⟨hf, hsix, by decide, by decide +kernel, hresult, hsame, hlast⟩

end Network

end WildcardNet
