import WildcardNet.Proofs.Cleanness
import WildcardNet.Proofs.Projection
/-!
# Acceptors

An acceptor in its wildcards has arcs that read equal symbols on both sides and no others. Then
every string that it accepts has equal sides. The converse needs that no arc lies idle: an arc that
can read two different symbols and lies between useful states is taken on some successful run, and
as two symbols are unknown, every arc of the run has something to read.
-/

namespace WildcardNet

namespace Wildcards

variable {w : Wildcards} {known : Label → Prop} {a : Arc} {p q : Label}

/-! ### Arcs that read equal symbols -/

theorem eq_of_readsRelative (hsame : a.input = a.output) (hother : a.input ≠ w.other)
    {pair : Label × Label} (h : a.ReadsRelative w known pair) : pair.1 = pair.2 := by
  rw [Arc.ReadsRelative, ← hsame] at h
  by_cases hidentity : a.input = w.identity
  · rw [hidentity, reads_identity] at h
    exact h.2.symm
  · have hwild := isWildcard_eq_false_iff.2 ⟨hidentity, hother⟩
    obtain ⟨hinput, houtput⟩ := (reads_concrete hwild hwild).1 h
    exact hinput.trans houtput.symm

variable (hw : w.identity ≠ w.other) (hpair : w.isDisallowedPair a.input a.output = false)
  (hp : w.Unknown known p) (hq : w.Unknown known q) (hpq : p ≠ q)

include hw hpair hp hq hpq

theorem exists_readsRelative : ∃ pair, a.ReadsRelative w known pair := by
  obtain ⟨x, hx, -⟩ := exists_covers hp hq hpq a.input p
  obtain ⟨pair, hread, -⟩ := (exists_readsRelative_iff hw hpair hp hq hpq .input).2 hx
  exact ⟨pair, hread⟩

/-- Every other kind of arc reads two different symbols: two other wildcards do, one of them can
keep clear of the label opposite, and without wildcards the labels differ. -/
theorem exists_readsRelative_ne (h : ¬ (a.input = a.output ∧ a.input ≠ w.other)) :
    ∃ pair, a.ReadsRelative w known pair ∧ pair.1 ≠ pair.2 := by
  simp only [Arc.ReadsRelative]
  rcases pair_cases hpair with ⟨hi, ho⟩ | ⟨hi, ho⟩ | ⟨hi, ho⟩ | ⟨hi, ho⟩ | ⟨hi, ho⟩
  · exact absurd ⟨hi.trans ho.symm, hi ▸ hw⟩ h
  · rw [hi, ho]
    exact ⟨(p, q), (reads_other hw).2 ⟨hp, hq, hpq⟩, hpq⟩
  · obtain ⟨x, hx, hne⟩ := exists_covers hp hq hpq w.other a.output
    rw [hi]
    exact ⟨(x, a.output), (reads_other_input ho).2 ⟨covers_other.1 hx, rfl⟩, (hne rfl).symm⟩
  · obtain ⟨y, hy, hne⟩ := exists_covers hp hq hpq w.other a.input
    rw [ho]
    exact ⟨(a.input, y), (reads_other_output hi).2 ⟨rfl, covers_other.1 hy⟩, hne rfl⟩
  · have hne : a.input ≠ a.output := fun heq => h ⟨heq, (isWildcard_eq_false_iff.1 hi).2⟩
    exact ⟨(a.input, a.output), (reads_concrete hi ho).2 ⟨rfl, rfl⟩, hne⟩

end Wildcards

namespace Network

variable {f : Network} {w : Wildcards} {known : Label → Prop} {s t : StateId} {a : Arc}
  {arcs : List Arc} {reads : Arc → Label × Label → Prop} {string : List (Label × Label)}

/-! ### Strings through a given arc -/

theorem AcceptsFrom.exists_reaches (h : f.AcceptsFrom reads s string) :
    ∃ t, f.Reaches s t ∧ f.IsFinal t := by
  obtain ⟨arcs, t, hrun, hfinal, -⟩ := acceptsFrom_iff.1 h
  exact ⟨t, ⟨arcs, hrun⟩, hfinal⟩

/-- The arcs that read an accepted string lie between useful states. -/
theorem AcceptsFrom.exists_useful_reader {start : StateId} (hstart : start ∈ f.start)
    (hreach : f.Reaches start s) (h : f.AcceptsFrom reads s string) :
    ∀ pair ∈ string, ∃ s, ∃ a ∈ f.arcsFrom s, f.Useful s ∧ f.Useful a.target ∧ reads a pair := by
  induction h with
  | nil => simp
  | @cons s a pair string leaves read rest ih =>
    have hone : f.Reaches s a.target := ⟨[a], .cons leaves (.nil _)⟩
    have hs : f.Useful s :=
      ⟨⟨start, hstart, hreach⟩, (AcceptsFrom.cons leaves read rest).exists_reaches⟩
    have htarget : f.Useful a.target :=
      ⟨⟨start, hstart, hreach.trans hone⟩, rest.exists_reaches⟩
    rw [List.forall_mem_cons]
    exact ⟨⟨s, a, leaves, hs, htarget, read⟩, ih (hreach.trans hone)⟩

theorem Run.exists_read (hread : ∀ s, ∀ a ∈ f.arcsFrom s, ∃ pair, reads a pair)
    (h : f.Run s arcs t) : ∃ string, List.Forall₂ reads arcs string := by
  induction h with
  | nil => exact ⟨[], .nil⟩
  | cons leaves _ ih =>
    obtain ⟨pair, hpair⟩ := hread _ _ leaves
    obtain ⟨string, hstring⟩ := ih
    exact ⟨pair :: string, .cons hpair hstring⟩

/-- What an arc between useful states reads is part of an accepted string. -/
theorem exists_accepts_of_reads (hread : ∀ s, ∀ a ∈ f.arcsFrom s, ∃ pair, reads a pair)
    (hs : f.Useful s) (ha : a ∈ f.arcsFrom s) (htarget : f.Useful a.target) {pair : Label × Label}
    (hpair : reads a pair) : ∃ string, f.Accepts reads string ∧ pair ∈ string := by
  obtain ⟨⟨start, hstart, before, hbefore⟩, -⟩ := hs
  obtain ⟨-, t, ⟨after, hafter⟩, hfinal⟩ := htarget
  obtain ⟨string, hstring⟩ := hbefore.exists_read hread
  obtain ⟨string', hstring'⟩ := hafter.exists_read hread
  refine ⟨string ++ pair :: string', accepts_iff.2 ⟨before ++ a :: after, ?_, ?_⟩, by simp⟩
  · exact ⟨start, hstart, t, hbefore.append (.cons ha hafter), hfinal⟩
  · exact List.rel_append hstring (.cons hpair hstring')

/-! ### Strings with equal sides -/

/-- Every accepted string has equal sides if and only if the arcs between useful states read equal
symbols. Arcs elsewhere may read what they like. -/
theorem forall_accepts_eq_iff (hw : w.identity ≠ w.other) (hclean : f.Clean w) {p q : Label}
    (hp : w.Unknown known p) (hq : w.Unknown known q) (hpq : p ≠ q) :
    (∀ string, f.Accepts (Arc.ReadsRelative w known) string → ∀ pair ∈ string, pair.1 = pair.2) ↔
      ∀ s, ∀ a ∈ f.arcsFrom s, f.Useful s → f.Useful a.target →
        a.input = a.output ∧ a.input ≠ w.other := by
  constructor
  · intro hequal s a ha hs htarget
    by_contra hbad
    obtain ⟨pair, hpair, hne⟩ :=
      Wildcards.exists_readsRelative_ne hw (hclean s a ha) hp hq hpq hbad
    have hread : ∀ s, ∀ a ∈ f.arcsFrom s, ∃ pair, a.ReadsRelative w known pair :=
      fun s a ha => Wildcards.exists_readsRelative hw (hclean s a ha) hp hq hpq
    obtain ⟨string, haccepts, hmem⟩ := exists_accepts_of_reads hread hs ha htarget hpair
    exact hne (hequal string haccepts pair hmem)
  · rintro harcs string ⟨start, hstart, haccepts⟩ pair hmem
    obtain ⟨s, a, ha, hs, htarget, hread⟩ :=
      haccepts.exists_useful_reader hstart (Reaches.refl f start) pair hmem
    obtain ⟨hsame, hother⟩ := harcs s a ha hs htarget
    exact Wildcards.eq_of_readsRelative hsame hother hread

/-- Trimming leaves only arcs between useful states. -/
theorem useful_ends_trim (hf : f.WellFormed) :
    ∀ s, ∀ a ∈ f.trim.network.arcsFrom s,
      f.trim.network.Useful s ∧ f.trim.network.Useful a.target := by
  intro s a ha
  exact ⟨useful_trim hf s (lt_size_of_mem_arcsFrom ha), useful_trim hf _ (hf.trim.target_lt ha)⟩

/-- Let two symbols be unknown, and let a network have allowed pairs of labels only. If every state
that an arc leaves or leads to lies on a run from the start to a final state, as in a trimmed
network, then the network is an acceptor in its wildcards if and only if every string that it
accepts has equal symbols on both sides. -/
theorem isSemanticAcceptor_iff_forall_accepts (hw : w.check = .ok ())
    (hpairs : f.disallowedPairs w = [])
    (huseful : ∀ s, ∀ a ∈ f.arcsFrom s, f.Useful s ∧ f.Useful a.target) {p q : Label}
    (hp : w.Unknown known p) (hq : w.Unknown known q) (hpq : p ≠ q) :
    f.isSemanticAcceptor w = true ↔
      ∀ string, f.Accepts (Arc.ReadsRelative w known) string →
        ∀ pair ∈ string, pair.1 = pair.2 := by
  obtain ⟨-, -, hne⟩ := Wildcards.check_eq_ok_iff.1 hw
  rw [forall_accepts_eq_iff hne (clean_iff.2 hpairs) hp hq hpq, isSemanticAcceptor_iff]
  constructor
  · intro harcs s a ha _ _
    exact harcs s a ha
  · intro harcs s a ha
    obtain ⟨hs, htarget⟩ := huseful s a ha
    exact harcs s a ha hs htarget

/-- The first network maps 5 to 6 on the way to a dead end only, and is an acceptor once it is
trimmed. In the second one an unknown symbol is read where 1 is written, on the way to a final
state. -/
theorem isSemanticAcceptor_iff_forall_accepts_dead_end :
    let w : Wildcards := ⟨100, 101⟩
    let known : Label → Prop := fun c => c = 1 ∨ c = 5 ∨ c = 6
    let f : Network := ⟨#[
      ⟨Weight.zero, [⟨100, 100, Weight.one, 1⟩, ⟨5, 6, Weight.one, 2⟩]⟩,
      ⟨Weight.one, [⟨1, 1, Weight.one, 0⟩, ⟨0, 0, Weight.one, 1⟩]⟩, ⟨Weight.zero, []⟩], some 0⟩
    let g : Network := ⟨#[
      ⟨Weight.zero, [⟨100, 100, Weight.one, 1⟩]⟩, ⟨Weight.one, [⟨101, 1, Weight.one, 0⟩]⟩], some 0⟩
    w.check = .ok () ∧ w.Unknown known 7 ∧ w.Unknown known 8 ∧
      f.trim.network.disallowedPairs w = [] ∧ g.trim.network.disallowedPairs w = [] ∧
      f.isSemanticAcceptor w = false ∧
      (∀ string, f.trim.network.Accepts (Arc.ReadsRelative w known) string →
        ∀ pair ∈ string, pair.1 = pair.2) ∧
      ¬ ∀ string, g.trim.network.Accepts (Arc.ReadsRelative w known) string →
        ∀ pair ∈ string, pair.1 = pair.2 := by
  intro w known f g
  have hw : w.check = .ok () := by decide
  have h7 : w.Unknown known 7 := by decide
  have h8 : w.Unknown known 8 := by decide
  have hf : f.WellFormed := isWellFormed_eq_true_iff.1 (by decide)
  have hg : g.WellFormed := isWellFormed_eq_true_iff.1 (by decide)
  have hfpairs : f.trim.network.disallowedPairs w = [] := by decide +kernel
  have hgpairs : g.trim.network.disallowedPairs w = [] := by decide +kernel
  have hfiff := isSemanticAcceptor_iff_forall_accepts hw hfpairs (useful_ends_trim hf) h7 h8
    (by decide)
  have hgiff := isSemanticAcceptor_iff_forall_accepts hw hgpairs (useful_ends_trim hg) h7 h8
    (by decide)
  refine ⟨hw, h7, h8, hfpairs, hgpairs, by decide, hfiff.1 (by decide +kernel), ?_⟩
  rw [← hgiff]
  decide +kernel

end Network

end WildcardNet
