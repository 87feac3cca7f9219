import WildcardNet.Proofs.Mirror
import WildcardNet.Proofs.Stability
/-!
# Projection

Projecting to one side leaves an acceptor of what the network reads there. A pair of other wildcards
stands for two different unknown symbols, so if two symbols are unknown, each of them is read with
some partner. The identity wildcard, which takes the place of the other wildcard on the side that is
kept, stands for each of them next to itself. From single arcs this carries over to strings.
-/

namespace WildcardNet

/-- The symbol of a pair on the given side. -/
def Side.symbol : Side → Label × Label → Label
  | .input, pair => pair.1
  | .output, pair => pair.2

namespace Wildcards

variable {w : Wildcards} {known : Label → Prop} {a : Arc} {x y p q : Label}

/-! ### What one side of an arc reads -/

/-- Where two symbols are unknown, a label stands for some symbol, and the other wildcard for one
that differs from a given symbol. -/
theorem exists_covers (hp : w.Unknown known p) (hq : w.Unknown known q) (hpq : p ≠ q)
    (label x : Label) : ∃ y, w.Covers known label y ∧ (label = w.other → x ≠ y) := by
  cases hwild : w.isWildcard label with
  | false =>
    refine ⟨label, (covers_of_not_wildcard hwild).2 rfl, fun hother => ?_⟩
    exact absurd hother (isWildcard_eq_false_iff.1 hwild).2
  | true =>
    by_cases hx : x = p
    · exact ⟨q, (covers_of_wildcard hwild).2 hq, fun _ => hx ▸ hpq⟩
    · exact ⟨p, (covers_of_wildcard hwild).2 hp, fun _ => hx⟩

/-- One side of an allowed pair reads what its label stands for by itself. -/
theorem exists_readsRelative_iff (hw : w.identity ≠ w.other)
    (hpair : w.isDisallowedPair a.input a.output = false) (hp : w.Unknown known p)
    (hq : w.Unknown known q) (hpq : p ≠ q) (side : Side) :
    (∃ pair, a.ReadsRelative w known pair ∧ side.symbol pair = x) ↔
      w.Covers known (a.label side) x := by
  simp only [Arc.ReadsRelative, reads_iff hw hpair]
  have hidentity := isDisallowedPair_eq_false_iff.1 hpair
  constructor
  · rintro ⟨⟨y, z⟩, ⟨⟨hinput, houtput⟩, -⟩, rfl⟩
    cases side with
    | input => exact hinput
    | output => exact houtput
  · intro hx
    by_cases hi : a.input = w.identity
    · -- Both sides carry the identity wildcard and read the symbol.
      have ho := hidentity.1 hi
      have hunknown : w.Unknown known x := by
        cases side with
        | input => exact covers_identity.1 (hi ▸ hx)
        | output => exact covers_identity.1 (ho ▸ hx)
      refine ⟨(x, x), ⟨⟨?_, ?_⟩, fun _ => rfl, fun h => absurd (hi.symm.trans h) hw⟩, ?_⟩
      · rw [hi, covers_identity]
        exact hunknown
      · rw [ho, covers_identity]
        exact hunknown
      · cases side <;> rfl
    · cases side with
      | input =>
        obtain ⟨y, hy, hne⟩ := exists_covers hp hq hpq a.output x
        exact ⟨(x, y), ⟨⟨hx, hy⟩, fun h => absurd h hi, fun _ => hne⟩, rfl⟩
      | output =>
        obtain ⟨y, hy, hne⟩ := exists_covers hp hq hpq a.input x
        exact ⟨(y, x), ⟨⟨hy, hx⟩, fun h => absurd h hi, fun h _ => (hne h).symm⟩, rfl⟩

/-! ### Projected arcs -/

theorem readsRelative_projectArc_iff (side : Side) :
    (w.projectArc side a).ReadsRelative w known (x, y) ↔
      w.Covers known (a.label side) x ∧ y = x := by
  rw [Arc.ReadsRelative, projectArc]
  cases hwild : w.isWildcard (a.label side) with
  | false =>
    obtain ⟨-, hother⟩ := isWildcard_eq_false_iff.1 hwild
    rw [if_neg hother, reads_concrete hwild hwild, covers_of_not_wildcard hwild]
    refine and_congr_right fun hx => ?_
    rw [← hx]
  | true =>
    have hkept : (if a.label side = w.other then w.identity else a.label side) = w.identity := by
      split
      · rfl
      · next hother => exact (isWildcard_eq_true_iff.1 hwild).resolve_right hother
    rw [hkept, reads_identity, covers_of_wildcard hwild]

/-- A projected arc reads just the symbols that the arc reads on the side that is kept, each next to
itself. -/
theorem readsRelative_projectArc_iff_exists (hw : w.identity ≠ w.other)
    (hpair : w.isDisallowedPair a.input a.output = false) (hp : w.Unknown known p)
    (hq : w.Unknown known q) (hpq : p ≠ q) (side : Side) (pair : Label × Label) :
    (w.projectArc side a).ReadsRelative w known pair ↔
      ∃ pair', a.ReadsRelative w known pair' ∧ (side.symbol pair', side.symbol pair') = pair := by
  obtain ⟨x, y⟩ := pair
  rw [readsRelative_projectArc_iff, ← exists_readsRelative_iff hw hpair hp hq hpq side]
  constructor
  · rintro ⟨⟨pair', hread, rfl⟩, rfl⟩
    exact ⟨pair', hread, rfl⟩
  · rintro ⟨pair', hread, heq⟩
    obtain ⟨rfl, rfl⟩ := Prod.mk.inj heq
    exact ⟨⟨pair', hread, rfl⟩, rfl⟩

theorem projectArc_projectArc (w : Wildcards) (side : Side) (a : Arc) :
    w.projectArc side (w.projectArc side a) = w.projectArc side a := by
  have hlabel : (w.projectArc side a).label side =
      if a.label side = w.other then w.identity else a.label side := by
    cases side <;> rfl
  have hkept : (if (w.projectArc side a).label side = w.other then w.identity
      else (w.projectArc side a).label side) = (w.projectArc side a).label side := by
    rw [hlabel]
    split <;> simp_all
  rw [projectArc, hkept, hlabel]
  rfl

end Wildcards

namespace Network

variable {f : Network} {w : Wildcards} {known : Label → Prop} {s : StateId}
  {reads reads' : Arc → Label × Label → Prop} {image : Label × Label → Label × Label}

/-! ### Strings -/

/-- Where each new arc reads the images of what the old one reads, the network accepts the images of
what it accepted. -/
theorem acceptsFrom_mapArcs_iff (φ : Arc → Arc) (htarget : ∀ a, (φ a).target = a.target)
    (hread : ∀ s, ∀ a ∈ f.arcsFrom s, ∀ pair,
      reads' (φ a) pair ↔ ∃ pair', reads a pair' ∧ image pair' = pair)
    {string : List (Label × Label)} :
    (f.mapArcs φ).AcceptsFrom reads' s string ↔
      ∃ string', f.AcceptsFrom reads s string' ∧ string'.map image = string := by
  have hfinal : ∀ s, (f.mapArcs φ).IsFinal s ↔ f.IsFinal s :=
    fun s => isFinal_congr (final?_mapArcs f φ s)
  induction string generalizing s with
  | nil =>
    simp only [List.map_eq_nil_iff, exists_eq_right, acceptsFrom_nil_iff, hfinal]
  | cons pair string ih =>
    rw [acceptsFrom_cons_iff, arcsFrom_mapArcs]
    constructor
    · rintro ⟨b, hb, hpair, hrest⟩
      obtain ⟨a, ha, rfl⟩ := List.mem_map.1 hb
      rw [htarget] at hrest
      obtain ⟨pair', hpair', rfl⟩ := (hread s a ha pair).1 hpair
      obtain ⟨string', hrest', rfl⟩ := ih.1 hrest
      exact ⟨pair' :: string', .cons ha hpair' hrest', rfl⟩
    · rintro ⟨string', haccepts, hmap⟩
      obtain ⟨pair', rest, rfl, rfl, rfl⟩ := List.map_eq_cons_iff.1 hmap
      obtain ⟨a, ha, hpair', hrest⟩ := acceptsFrom_cons_iff.1 haccepts
      refine ⟨φ a, List.mem_map_of_mem ha, (hread s a ha _).2 ⟨pair', hpair', rfl⟩, ?_⟩
      rw [htarget]
      exact ih.2 ⟨rest, hrest, rfl⟩

theorem accepts_mapArcs_iff (φ : Arc → Arc) (htarget : ∀ a, (φ a).target = a.target)
    (hread : ∀ s, ∀ a ∈ f.arcsFrom s, ∀ pair,
      reads' (φ a) pair ↔ ∃ pair', reads a pair' ∧ image pair' = pair)
    {string : List (Label × Label)} :
    (f.mapArcs φ).Accepts reads' string ↔
      ∃ string', f.Accepts reads string' ∧ string'.map image = string := by
  simp only [Accepts, start_mapArcs, acceptsFrom_mapArcs_iff φ htarget hread]
  constructor
  · rintro ⟨start, hstart, string', haccepts, hmap⟩
    exact ⟨string', ⟨start, hstart, haccepts⟩, hmap⟩
  · rintro ⟨string', ⟨start, hstart, haccepts⟩, hmap⟩
    exact ⟨start, hstart, string', haccepts, hmap⟩

/-- Where an image is known by a property of its own and by a part that it takes over, so are the
images of a list. -/
theorem map_eq_iff_of_forall {α β γ : Type} {image : α → β} {part : α → γ} {part' : β → γ}
    {p : β → Prop} (h : ∀ x y, image x = y ↔ p y ∧ part x = part' y) {xs : List α} {ys : List β} :
    xs.map image = ys ↔ (∀ y ∈ ys, p y) ∧ xs.map part = ys.map part' := by
  induction xs generalizing ys with
  | nil => cases ys <;> simp
  | cons x xs ih =>
    cases ys with
    | nil => simp
    | cons y ys =>
      simp only [List.map_cons, List.cons.injEq, List.forall_mem_cons, h, ih]
      exact and_and_and_comm

/-- A string of pairs of equal symbols is given by the symbols. -/
theorem map_diagonal_eq_iff {side : Side} {string string' : List (Label × Label)} :
    string'.map (fun pair => (side.symbol pair, side.symbol pair)) = string ↔
      (∀ pair ∈ string, pair.1 = pair.2) ∧ string'.map side.symbol = string.map Prod.fst := by
  apply map_eq_iff_of_forall
  intro pair' pair
  rw [Prod.ext_iff]
  constructor
  · rintro ⟨hfst, hsnd⟩
    exact ⟨hfst.symm.trans hsnd, hfst⟩
  · rintro ⟨hequal, hfst⟩
    exact ⟨hfst, hfst.trans hequal⟩

/-! ### Networks -/

theorem isSemanticAcceptor_project (hw : w.identity ≠ w.other) (f : Network) (side : Side) :
    (f.project w side).network.isSemanticAcceptor w = true := by
  rw [isSemanticAcceptor_iff, project]
  simp only [arcsFrom_mapArcs, List.forall_mem_map]
  intro s a _
  refine ⟨rfl, ?_⟩
  rw [Wildcards.projectArc]
  split
  · exact hw
  · assumption

theorem project_project_network (f : Network) (w : Wildcards) (side : Side) :
    ((f.project w side).network.project w side).network = (f.project w side).network := by
  apply mapArcs_eq_self
  intro s b hb
  rw [project, arcsFrom_mapArcs] at hb
  obtain ⟨a, -, rfl⟩ := List.mem_map.1 hb
  exact w.projectArc_projectArc side a

/-- Projection to a side accepts the strings of pairs of equal symbols in which these are what the
network reads on that side of some string, if every pair of labels is allowed and two symbols are
unknown. The result is an acceptor in its wildcards as well. It has the states of the network, and
arcs with the same weights and targets. Projecting again changes nothing. -/
theorem accepts_project_iff (hw : w.check = .ok ()) (hpairs : f.disallowedPairs w = [])
    {p q : Label} (hp : w.Unknown known p) (hq : w.Unknown known q) (hpq : p ≠ q) (side : Side) :
    (f.project w side).result = .ok () ∧
    (∀ string, (f.project w side).network.Accepts (Arc.ReadsRelative w known) string ↔
      (∀ pair ∈ string, pair.1 = pair.2) ∧
        ∃ string', string'.map side.symbol = string.map Prod.fst ∧
          f.Accepts (Arc.ReadsRelative w known) string') ∧
    (f.project w side).network.isSemanticAcceptor w = true ∧
    ((f.project w side).network.start = f.start ∧ (f.project w side).network.size = f.size ∧
      ∀ s, (f.project w side).network.final? s = f.final? s ∧
        ((f.project w side).network.arcsFrom s).map (fun a => (a.weight, a.target)) =
          (f.arcsFrom s).map fun a => (a.weight, a.target)) ∧
    ((f.project w side).network.project w side).network = (f.project w side).network := by
  obtain ⟨-, -, hne⟩ := Wildcards.check_eq_ok_iff.1 hw
  have hallowed := forall_arc_iff.1 (disallowedPairs_eq_nil_iff.1 hpairs)
  refine ⟨rfl, ?_, isSemanticAcceptor_project hne f side, ⟨rfl, size_mapArcs f _, ?_⟩,
    project_project_network f w side⟩
  · intro string
    have himage : (f.project w side).network.Accepts (Arc.ReadsRelative w known) string ↔
        ∃ string', f.Accepts (Arc.ReadsRelative w known) string' ∧
          string'.map (fun pair => (side.symbol pair, side.symbol pair)) = string :=
      accepts_mapArcs_iff (w.projectArc side) (fun _ => rfl) fun s a ha =>
        Wildcards.readsRelative_projectArc_iff_exists hne (hallowed s a ha) hp hq hpq side
    rw [himage]
    simp only [map_diagonal_eq_iff]
    constructor
    · rintro ⟨string', haccepts, hequal, hsymbols⟩
      exact ⟨hequal, string', hsymbols, haccepts⟩
    · rintro ⟨hequal, string', hsymbols, haccepts⟩
      exact ⟨string', haccepts, hequal, hsymbols⟩
  · intro s
    rw [project, final?_mapArcs, arcsFrom_mapArcs, List.map_map]
    exact ⟨rfl, rfl⟩

/-- The arcs of the network pair other wildcards, an other wildcard with a symbol and with epsilon,
and identity wildcards. -/
theorem accepts_project_iff_wildcards :
    let w : Wildcards := ⟨100, 101⟩
    let known : Label → Prop := fun c => c = 1
    let f : Network := ⟨#[
      ⟨Weight.zero, [⟨101, 101, Weight.one, 1⟩]⟩,
      ⟨Weight.zero, [⟨101, 1, Weight.one, 2⟩, ⟨0, 101, Weight.one, 1⟩]⟩,
      ⟨Weight.one, [⟨100, 100, Weight.one, 0⟩]⟩], some 0⟩
    w.check = .ok () ∧ f.disallowedPairs w = [] ∧ w.Unknown known 5 ∧ w.Unknown known 6 ∧
      (f.project w .input).network.Accepts (Arc.ReadsRelative w known) [(5, 5), (0, 0), (5, 5)] ∧
      (f.project w .output).network.Accepts (Arc.ReadsRelative w known) [(6, 6), (5, 5), (1, 1)] ∧
      ¬ (f.project w .input).network.Accepts (Arc.ReadsRelative w known)
        [(5, 6), (0, 5), (5, 1)] ∧
      (f.project w .input).network.isSemanticAcceptor w = true := by
  intro w known f
  have hw : w.check = .ok () := by decide
  have hpairs : f.disallowedPairs w = [] := by decide
  have h5 : w.Unknown known 5 := by decide
  have h6 : w.Unknown known 6 := by decide
  have hf : f.Accepts (Arc.ReadsRelative w known) [(5, 6), (0, 5), (5, 1)] :=
    ⟨0, rfl, .cons List.mem_cons_self (by decide)
      (.cons (List.mem_cons_of_mem _ List.mem_cons_self) (by decide)
        (.cons List.mem_cons_self (by decide) (.nil ⟨_, rfl, by decide⟩)))⟩
  obtain ⟨-, hinput, hacceptor, -⟩ := accepts_project_iff hw hpairs h5 h6 (by decide) .input
  obtain ⟨-, houtput, -⟩ := accepts_project_iff hw hpairs h5 h6 (by decide) .output
  refine ⟨hw, hpairs, h5, h6, (hinput _).2 ⟨by simp, [(5, 6), (0, 5), (5, 1)], rfl, hf⟩,
    (houtput _).2 ⟨by simp, [(5, 6), (0, 5), (5, 1)], rfl, hf⟩, ?_, hacceptor⟩
  intro h
  have hequal := ((hinput _).1 h).1 (5, 6) List.mem_cons_self
  exact absurd hequal (by decide)

end Network

end WildcardNet
