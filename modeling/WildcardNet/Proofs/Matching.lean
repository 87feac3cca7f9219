import Mathlib.Data.Finset.Card
import Mathlib.Data.Finset.Dedup
import WildcardNet.Network.Matcher
import WildcardNet.Proofs.Edits
/-!
# Matchers answer like a scan

A matcher keeps a table for every state that it was asked about. Each table lists the positions of
the state's arcs, whatever label the question was about that made the matcher build it. So the
answer to a query is what a scan of the arcs gives, after any other queries, and there are as many
tables as there are states among the queries.
-/

namespace WildcardNet

/-! ### Tables -/

/-- The arcs at the positions that a table lists under a label are those that read it. -/
theorem ArcTable.mapM_getD_ofArcs (arcs : List Arc) (label : Label) :
    ((ArcTable.ofArcs arcs).getD label []).mapM (fun k => arcs[k]?) =
      some (arcs.filter fun a => a.input == label) := by
  have hfirst : (arcs.zipIdx.filter fun p => p.1.input == label).map Prod.fst =
      arcs.filter fun a => a.input == label := by
    conv_rhs => rw [← List.zipIdx_map_fst 0 arcs, List.filter_map]
    rfl
  rw [ArcTable.ofArcs, ArcTable.getD_ofPlaces, mapM_map_eq_some, hfirst]
  intro p hp
  exact List.mem_zipIdx_iff_getElem?.1 (List.mem_of_mem_filter hp)

namespace Matcher

variable {m : Matcher} {s : StateId} {queried : Finset StateId}

/-! ### What one query does -/

/-- Every table of the matcher is that of the state's arcs. -/
def Faithful (m : Matcher) : Prop :=
  ∀ (s : StateId) (table : ArcTable), m.tables[s]? = some table →
    table = ArcTable.ofArcs (m.network.arcsFrom s)

/-- The matcher has tables for the given states and for no others. -/
structure Indexes (m : Matcher) (queried : Finset StateId) : Prop where
  mem_iff : ∀ s, s ∈ m.tables ↔ s ∈ queried
  size_eq : m.indexedStates = queried.card

theorem faithful_fresh (f : Network) : Faithful { network := f } := by
  intro s table h
  simp at h

theorem indexes_fresh (f : Network) : Indexes { network := f } ∅ := by
  constructor
  · simp
  · simp [indexedStates]

@[simp] theorem network_index (m : Matcher) (s : StateId) (arcs : List Arc) :
    (m.index s arcs).network = m.network := by
  rw [index]
  split <;> rfl

theorem Faithful.index (hm : m.Faithful) (s : StateId) :
    (m.index s (m.network.arcsFrom s)).Faithful := by
  intro t table ht
  rw [network_index]
  rw [Matcher.index] at ht
  split at ht
  · exact hm t table ht
  · rw [Std.HashMap.getElem?_insert] at ht
    split at ht
    · next heq =>
      obtain rfl : s = t := by simpa using heq
      exact (Option.some.inj ht).symm
    · exact hm t table ht

theorem Indexes.index (hm : m.Indexes queried) (s : StateId) (arcs : List Arc) :
    (m.index s arcs).Indexes (insert s queried) := by
  rw [Matcher.index]
  split
  · next hs =>
    rwa [Finset.insert_eq_of_mem ((hm.mem_iff s).1 hs)]
  · next hs =>
    constructor
    · intro t
      rw [Std.HashMap.mem_insert, beq_iff_eq, hm.mem_iff, Finset.mem_insert, eq_comm (a := s)]
    · have hnew : s ∉ queried := fun h => hs ((hm.mem_iff s).2 h)
      rw [Finset.card_insert_of_notMem hnew, ← hm.size_eq]
      simp [indexedStates, Std.HashMap.size_insert, hs]

theorem mem_tables_index (m : Matcher) (s : StateId) (arcs : List Arc) :
    s ∈ (m.index s arcs).tables := by
  rw [index]
  split
  · assumption
  · simp

/-- A query of an existing state is answered as by a scan. -/
theorem Faithful.find?_eq (hm : m.Faithful) (hs : s < m.network.size) (label : Label) :
    m.find? s label = some ((m.network.arcsFrom s).filter fun a => a.input == label,
      m.index s (m.network.arcsFrom s)) := by
  obtain ⟨table, htable⟩ :=
    Option.isSome_iff_exists.1 (Std.HashMap.isSome_getElem?_iff_mem.2
      (mem_tables_index m s (m.network.arcsFrom s)))
  have hfaithful := hm.index s s table htable
  rw [network_index] at hfaithful
  simp only [find?, Network.arcs?_eq_some hs, Option.bind_eq_bind, Option.bind_some, htable]
  rw [hfaithful, ArcTable.mapM_getD_ofArcs]
  rfl

/-! ### What a sequence of queries does -/

/-- Puts the queries to the matcher one after the other. -/
def findAll? (m : Matcher) : List (StateId × Label) → Option (List (List Arc) × Matcher)
  | [] => some ([], m)
  | (s, label) :: queries => do
    let (found, m) ← m.find? s label
    let (later, m) ← m.findAll? queries
    return (found :: later, m)

theorem exists_findAll?_eq (queries : List (StateId × Label)) (hm : m.Faithful)
    (hindexes : m.Indexes queried) (hqueries : ∀ q ∈ queries, q.1 < m.network.size) :
    ∃ m' : Matcher, m.findAll? queries = some (queries.map fun q =>
        (m.network.arcsFrom q.1).filter fun a => a.input == q.2, m') ∧
      m'.Indexes (queried ∪ (queries.map Prod.fst).toFinset) := by
  induction queries generalizing m queried with
  | nil => exact ⟨m, rfl, by simpa using hindexes⟩
  | cons q queries ih =>
    obtain ⟨s, label⟩ := q
    obtain ⟨hs, hrest⟩ := List.forall_mem_cons.1 hqueries
    obtain ⟨m', hlater, hindexes'⟩ := ih (hm.index s) (hindexes.index s (m.network.arcsFrom s))
      (by simpa using hrest)
    refine ⟨m', ?_, ?_⟩
    · simp only [findAll?, hm.find?_eq hs, Option.bind_eq_bind, Option.bind_some, hlater,
        network_index]
      rfl
    · simpa [Finset.insert_union_comm] using hindexes'

/-- Queries of existing states, put to a new matcher in any number and order, are each answered with
the arcs of the state that read the label, as they are stored. There are then as many tables as there
are different states among the queries. -/
theorem findAll?_eq_scan (f : Network) (queries : List (StateId × Label))
    (hqueries : ∀ q ∈ queries, q.1 < f.size) :
    ∃ m : Matcher,
      findAll? { network := f } queries = some (queries.map fun q =>
        (f.arcsFrom q.1).filter fun a => a.input == q.2, m) ∧
      m.indexedStates = (queries.map Prod.fst).toFinset.card := by
  obtain ⟨m, hanswers, hindexes⟩ :=
    exists_findAll?_eq queries (faithful_fresh f) (indexes_fresh f) hqueries
  rw [Finset.empty_union] at hindexes
  exact ⟨m, hanswers, hindexes.size_eq⟩

/-- Equal arcs, labels that no arc reads, and queries of a state again after others. -/
theorem findAll?_eq_scan_repeated :
    let f : Network := ⟨#[
      ⟨Weight.zero, [⟨7, 1, Weight.one, 1⟩, ⟨8, 8, Weight.one, 2⟩, ⟨7, 2, Weight.one, 9⟩,
        ⟨7, 1, Weight.one, 1⟩]⟩,
      ⟨Weight.one, []⟩,
      ⟨Weight.zero, [⟨7, 7, Weight.one, 0⟩]⟩], some 0⟩
    let queries : List (StateId × Label) := [(0, 8), (2, 7), (0, 7), (1, 7), (0, 9), (2, 7)]
    (∀ q ∈ queries, q.1 < f.size) ∧
      ∃ m : Matcher,
        findAll? { network := f } queries = some ([[⟨8, 8, Weight.one, 2⟩],
          [⟨7, 7, Weight.one, 0⟩],
          [⟨7, 1, Weight.one, 1⟩, ⟨7, 2, Weight.one, 9⟩, ⟨7, 1, Weight.one, 1⟩], [], [],
          [⟨7, 7, Weight.one, 0⟩]], m) ∧
        m.indexedStates = 3 := by
  intro f queries
  have hqueries : ∀ q ∈ queries, q.1 < f.size := by simp [queries, f, Network.size]
  obtain ⟨m, hanswers, hindexed⟩ := findAll?_eq_scan f queries hqueries
  exact ⟨hqueries, m, hanswers, hindexed⟩

end Matcher

end WildcardNet
