import Mathlib.Data.List.Basic
import WildcardNet.Pass.Synchronize
import WildcardNet.Proofs.Matching
import WildcardNet.Proofs.Trimming
/-!
# Links

Synchronizing asks a matcher for the separators that leave a state. A matcher with tables answers
like a plain scan of the arcs, so the links of a network are all joins of a first arc, a separator
and a last arc, in the order of the scan. In a well-formed network no link is refused, and what
remains is to delete the separators.
-/

namespace WildcardNet

/-! ### Scanning for links -/

namespace RuleMarks

variable {rule : RuleMarks} {w : Wildcards} {f : Network} {m : Matcher} {first : PlacedArc}

/-- The links that begin with an arc of the network. -/
def linksFrom (rule : RuleMarks) (w : Wildcards) (f : Network) (first : PlacedArc) :
    List PlacedArc :=
  ((f.arcsFrom first.arc.target).filter fun a => a.input == rule.separator).flatMap fun bridge =>
    (f.arcsFrom bridge.target).map (rule.link w first)

/-- All links of the network. -/
def allLinks (rule : RuleMarks) (w : Wildcards) (f : Network) : List PlacedArc :=
  (f.placedArcs.filter fun a => rule.opens a.arc).flatMap (rule.linksFrom w f)

theorem linksOf_eq (hf : m.network.WellFormed) (hm : m.Faithful)
    (htarget : first.arc.target < m.network.size) :
    ∃ m' : Matcher, rule.linksOf w first m = some (rule.linksFrom w m.network first, m') ∧
      m'.network = m.network ∧ m'.Faithful := by
  refine ⟨_, ?_, Matcher.network_index m first.arc.target _, hm.index first.arc.target⟩
  have hlasts : (((m.network.arcsFrom first.arc.target).filter
      fun a => a.input == rule.separator).mapM fun a => m.network.arcs? a.target) = some _ :=
    mapM_eq_some fun a ha => Network.arcs?_eq_some (hf.target_lt (List.mem_of_mem_filter ha))
  simp only [linksOf, hm.find?_eq htarget, Matcher.network_index, hlasts, Option.bind_eq_bind,
    Option.bind_some]
  rw [linksFrom, List.flatMap_def, List.map_flatten, List.map_map]
  rfl

theorem mapM_linksOf_eq (rule : RuleMarks) (w : Wildcards) (hf : m.network.WellFormed)
    (hm : m.Faithful) (firsts : List PlacedArc)
    (htargets : ∀ p ∈ firsts, p.arc.target < m.network.size) :
    ∃ m' : Matcher, (firsts.mapM (rule.linksOf w)).run m =
        some (firsts.map (rule.linksFrom w m.network), m') ∧
      m'.network = m.network ∧ m'.Faithful := by
  induction firsts generalizing m with
  | nil => exact ⟨m, rfl, rfl, hm⟩
  | cons p firsts ih =>
    obtain ⟨hp, hrest⟩ := List.forall_mem_cons.1 htargets
    obtain ⟨m₁, hfirst, hnetwork₁, hm₁⟩ := linksOf_eq hf hm hp
    -- The matcher changes from query to query, but not the network that it is about.
    rw [← hnetwork₁] at hf hrest
    obtain ⟨m₂, hlater, hnetwork₂, hm₂⟩ := ih hf hm₁ hrest
    refine ⟨m₂, ?_, hnetwork₂.trans hnetwork₁, hm₂⟩
    rw [hnetwork₁] at hlater
    have hstep : (rule.linksOf w p).run m = some (rule.linksFrom w m.network p, m₁) := hfirst
    rw [List.mapM_cons, StateT.run_bind, hstep]
    simp [hlater]

/-- Scanning a well-formed network finds all links. -/
theorem exists_links_eq (rule : RuleMarks) (w : Wildcards) (hf : f.WellFormed) :
    ∃ m, rule.links w f = some (rule.allLinks w f, m) := by
  obtain ⟨m, hlinks, -, -⟩ := mapM_linksOf_eq rule w hf (Matcher.faithful_fresh f)
    (f.placedArcs.filter fun a => rule.opens a.arc)
    fun p hp => hf.target_lt (Network.mem_placedArcs_iff.1 (List.mem_of_mem_filter hp))
  refine ⟨m, ?_⟩
  simp only [links, hlinks, Option.bind_eq_bind, Option.bind_some]
  rw [allLinks, List.flatMap_def]
  rfl

theorem mem_linksFrom_iff {p : PlacedArc} :
    p ∈ rule.linksFrom w f first ↔
      ∃ bridge ∈ f.arcsFrom first.arc.target, bridge.input = rule.separator ∧
        ∃ last ∈ f.arcsFrom bridge.target, rule.link w first last = p := by
  simp only [linksFrom, List.mem_flatMap, List.mem_filter, List.mem_map, beq_iff_eq, and_assoc]

theorem mem_allLinks_iff {s : StateId} {b : Arc} :
    ⟨s, b⟩ ∈ rule.allLinks w f ↔
      ∃ first ∈ f.arcsFrom s, rule.opens first = true ∧
        ∃ bridge ∈ f.arcsFrom first.target, bridge.input = rule.separator ∧
          ∃ last ∈ f.arcsFrom bridge.target, (rule.link w ⟨s, first⟩ last).arc = b := by
  simp only [allLinks, List.mem_flatMap, List.mem_filter, Network.mem_placedArcs_iff,
    mem_linksFrom_iff]
  constructor
  · rintro ⟨⟨source, first⟩, ⟨hfirst, hopens⟩, bridge, hbridge, hsep, last, hlast, hlink⟩
    obtain ⟨rfl, rfl⟩ := PlacedArc.mk.inj hlink
    exact ⟨first, hfirst, hopens, bridge, hbridge, hsep, last, hlast, rfl⟩
  · rintro ⟨first, hfirst, hopens, bridge, hbridge, hsep, last, hlast, rfl⟩
    exact ⟨⟨s, first⟩, ⟨hfirst, hopens⟩, bridge, hbridge, hsep, last, hlast, rfl⟩

theorem admits_allLinks (rule : RuleMarks) (w : Wildcards) (hf : f.WellFormed) :
    ∀ p ∈ rule.allLinks w f, f.admits p = true := by
  rintro ⟨s, b⟩ hp
  obtain ⟨first, hfirst, -, bridge, hbridge, -, last, hlast, rfl⟩ := mem_allLinks_iff.1 hp
  have htarget := hf.target_lt hlast
  exact Network.admits_iff.2 ⟨Network.lt_size_of_mem_arcsFrom hfirst, htarget⟩

end RuleMarks

/-! ### Synchronizing -/

namespace Network

variable {f : Network} {rule : RuleMarks} {w : Wildcards} {s : StateId} {b : Arc}

/-- The network with its links, before its separators are deleted. -/
def withLinks (f : Network) (rule : RuleMarks) (w : Wildcards) : Network :=
  f.sortArcs.appendArcs (rule.allLinks w f.sortArcs)

theorem WellFormed.withLinks (hf : f.WellFormed) (rule : RuleMarks) (w : Wildcards) :
    (f.withLinks rule w).WellFormed :=
  hf.sortArcs.appendArcs (RuleMarks.admits_allLinks rule w hf.sortArcs)

/-- Synchronizing a well-formed network inserts all links and then prunes. -/
theorem exists_synchronize_eq (hf : f.WellFormed) (rule : RuleMarks) (w : Wildcards) :
    ∃ events, f.synchronize rule w =
      ((((f.withLinks rule w).pruneArcs fun a => a.input == rule.separator).andThen
        fun h separators => ⟨h, [.ruleSynchronized (rule.allLinks w f.sortArcs).length separators
          h.size], .ok ()⟩).after events) := by
  have hadmits := RuleMarks.admits_allLinks rule w hf.sortArcs
  obtain ⟨m, hlinks⟩ := RuleMarks.exists_links_eq rule w hf.sortArcs
  refine ⟨[.ruleScanned m.indexedStates], ?_⟩
  simp only [synchronize, hlinks, insertStaged_of_admits hadmits, Outcome.andThen, withLinks]
  rfl

theorem synchronize_result (hf : f.WellFormed) (rule : RuleMarks) (w : Wildcards) :
    (f.synchronize rule w).result = .ok () := by
  obtain ⟨events, heq⟩ := exists_synchronize_eq hf rule w
  rw [heq, Outcome.after, Outcome.andThen_result_of_ok (pruneArcs_result (hf.withLinks rule w) _)]

theorem synchronize_network (hf : f.WellFormed) (rule : RuleMarks) (w : Wildcards) :
    (f.synchronize rule w).network =
      ((f.withLinks rule w).pruneArcs fun a => a.input == rule.separator).network := by
  obtain ⟨events, heq⟩ := exists_synchronize_eq hf rule w
  rw [heq, Outcome.after, Outcome.andThen_network_of_ok (pruneArcs_result (hf.withLinks rule w) _)]

theorem isFinal_withLinks_iff : (f.withLinks rule w).IsFinal s ↔ f.IsFinal s :=
  isFinal_congr (by rw [withLinks, final?_appendArcs, final?_sortArcs])

theorem start_withLinks (f : Network) (rule : RuleMarks) (w : Wildcards) :
    (f.withLinks rule w).start = f.start := by
  rw [withLinks, start_appendArcs, start_sortArcs]

/-- An arc of the linked network is an old one or joins three old ones. -/
theorem mem_arcsFrom_withLinks_iff (hf : f.WellFormed) :
    b ∈ (f.withLinks rule w).arcsFrom s ↔
      b ∈ f.arcsFrom s ∨
        ∃ first ∈ f.arcsFrom s, rule.opens first = true ∧
          ∃ bridge ∈ f.arcsFrom first.target, bridge.input = rule.separator ∧
            ∃ last ∈ f.arcsFrom bridge.target, (rule.link w ⟨s, first⟩ last).arc = b := by
  rw [withLinks, mem_arcsFrom_appendArcs (RuleMarks.admits_allLinks rule w hf.sortArcs),
    RuleMarks.mem_allLinks_iff]
  simp only [arcsFrom_sortArcs, List.mem_mergeSort]

end Network

end WildcardNet
