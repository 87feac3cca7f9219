import WildcardNet.Proofs.Cleanness
import WildcardNet.Proofs.Projection
/-!
# Blanked sides

Blanking a side leaves a network that reads nothing on that side, and on the opposite one just what
it read there before. An identity wildcard becomes the other wildcard first, which next to epsilon
stands for every unknown symbol, as the identity wildcard did.
-/

namespace WildcardNet

/-- The pair with epsilon on the given side. -/
def Side.blankPair : Side → Label × Label → Label × Label
  | .input, pair => (Label.epsilon, pair.2)
  | .output, pair => (pair.1, Label.epsilon)

theorem Side.blankPair_eq_iff (side : Side) (pair pair' : Label × Label) :
    side.blankPair pair = pair' ↔ side.symbol pair' = Label.epsilon ∧
      side.opposite.symbol pair = side.opposite.symbol pair' := by
  rw [Prod.ext_iff]
  cases side with
  | input => exact and_congr_left fun _ => eq_comm
  | output => exact and_comm.trans (and_congr_left fun _ => eq_comm)

/-! ### Blanked arcs -/

namespace Wildcards

variable {w : Wildcards} {known : Label → Prop} {a : Arc} {label x p q : Label}

/-- The identity wildcard without its promise stands for the same symbols. -/
theorem covers_demoteLabel_iff :
    w.Covers known (w.demoteLabel label) x ↔ w.Covers known label x := by
  rw [demoteLabel]
  split
  · next h => rw [h, covers_other, covers_identity]
  · rfl

/-- A blanked arc reads epsilon on its blank side, and opposite what the label there stands for. -/
theorem readsRelative_blankArc_iff (hw : w.check = .ok ()) (side : Side) (pair : Label × Label) :
    (w.blankArc side a).ReadsRelative w known pair ↔ side.symbol pair = Label.epsilon ∧
      w.Covers known (a.label side.opposite) (side.opposite.symbol pair) := by
  obtain ⟨hidentity, hother, hne⟩ := check_eq_ok_iff.1 hw
  have hepsilon := isWildcard_eq_false_iff.2 ⟨hidentity.symm, hother.symm⟩
  have hdemoted := demoteLabel_ne_identity hne (a.label side.opposite)
  rw [Arc.ReadsRelative, reads_iff hne (allowed_blankArc hidentity hne side a),
    ← @covers_demoteLabel_iff w known (a.label side.opposite),
    ← @covers_of_not_wildcard w known (side.symbol pair) _ hepsilon]
  -- No wildcard stands next to a blank side that could tie the two symbols to each other.
  cases side with
  | input =>
    refine ⟨fun h => h.1, fun h => ⟨h, fun heq => ?_, fun heq => ?_⟩⟩
    · exact absurd heq hidentity.symm
    · exact absurd heq hother.symm
  | output =>
    refine ⟨fun h => h.1.symm, fun h => ⟨h.symm, fun heq => ?_, fun _ heq => ?_⟩⟩
    · exact absurd heq hdemoted
    · exact absurd heq hother.symm

theorem readsRelative_blankArc_iff_exists (hw : w.check = .ok ())
    (hpair : w.isDisallowedPair a.input a.output = false) (hp : w.Unknown known p)
    (hq : w.Unknown known q) (hpq : p ≠ q) (side : Side) (pair : Label × Label) :
    (w.blankArc side a).ReadsRelative w known pair ↔
      ∃ pair', a.ReadsRelative w known pair' ∧ side.blankPair pair' = pair := by
  obtain ⟨-, -, hne⟩ := check_eq_ok_iff.1 hw
  simp only [readsRelative_blankArc_iff hw, Side.blankPair_eq_iff,
    ← exists_readsRelative_iff hne hpair hp hq hpq]
  constructor
  · rintro ⟨hblank, pair', hread, hsymbol⟩
    exact ⟨pair', hread, hblank, hsymbol⟩
  · rintro ⟨pair', hread, hblank, hsymbol⟩
    exact ⟨hblank, pair', hread, hsymbol⟩

end Wildcards

/-! ### Blanked networks -/

namespace Network

variable {f : Network} {w : Wildcards} {known : Label → Prop}

/-- Blanking a side leaves a network that accepts the strings with only epsilon on that side whose
opposite side is that of some string which the network accepted, if every pair of labels is allowed
and two symbols are unknown. All its pairs of labels are allowed. -/
theorem accepts_blank_iff (hw : w.check = .ok ()) (hpairs : f.disallowedPairs w = [])
    {p q : Label} (hp : w.Unknown known p) (hq : w.Unknown known q) (hpq : p ≠ q) (side : Side) :
    (f.blank w side).result = .ok () ∧
    (∀ string, (f.blank w side).network.Accepts (Arc.ReadsRelative w known) string ↔
      (∀ pair ∈ string, side.symbol pair = Label.epsilon) ∧
        ∃ string', string'.map side.opposite.symbol = string.map side.opposite.symbol ∧
          f.Accepts (Arc.ReadsRelative w known) string') ∧
    (f.blank w side).network.disallowedPairs w = [] := by
  obtain ⟨hid, -, hne⟩ := Wildcards.check_eq_ok_iff.1 hw
  have hallowed := forall_arc_iff.1 (disallowedPairs_eq_nil_iff.1 hpairs)
  refine ⟨rfl, ?_, clean_iff.1 (clean_mapArcs (Wildcards.allowed_blankArc hid hne side))⟩
  intro string
  have himage : (f.blank w side).network.Accepts (Arc.ReadsRelative w known) string ↔
      ∃ string', f.Accepts (Arc.ReadsRelative w known) string' ∧
        string'.map side.blankPair = string :=
    accepts_mapArcs_iff (w.blankArc side) (w.target_blankArc side) fun s a ha =>
      Wildcards.readsRelative_blankArc_iff_exists hw (hallowed s a ha) hp hq hpq side
  rw [himage]
  simp only [map_eq_iff_of_forall side.blankPair_eq_iff]
  constructor
  · rintro ⟨string', haccepts, hblank, hsymbols⟩
    exact ⟨hblank, string', hsymbols, haccepts⟩
  · rintro ⟨hblank, string', hsymbols, haccepts⟩
    exact ⟨string', haccepts, hblank, hsymbols⟩

/-- Two sides of a network in which every kind of wildcard pair stands, blanked one at a time. -/
theorem accepts_blank_iff_wildcards :
    let w : Wildcards := ⟨100, 101⟩
    let known : Label → Prop := fun c => c = 1
    let f : Network := ⟨#[
      ⟨Weight.zero, [⟨100, 100, Weight.one, 1⟩]⟩,
      ⟨Weight.zero, [⟨101, 101, Weight.one, 2⟩, ⟨1, 101, Weight.one, 1⟩]⟩,
      ⟨Weight.one, [⟨101, 1, Weight.one, 0⟩]⟩], some 0⟩
    w.check = .ok () ∧ f.disallowedPairs w = [] ∧ w.Unknown known 5 ∧ w.Unknown known 6 ∧
      (f.blank w .input).network.Accepts (Arc.ReadsRelative w known) [(0, 5), (0, 6), (0, 6)] ∧
      (f.blank w .output).network.Accepts (Arc.ReadsRelative w known) [(5, 0), (1, 0), (5, 0)] ∧
      ¬ (f.blank w .input).network.Accepts (Arc.ReadsRelative w known)
        [(5, 5), (1, 6), (5, 6)] ∧
      (f.blank w .input).network.disallowedPairs w = [] := by
  intro w known f
  have hw : w.check = .ok () := by decide
  have hpairs : f.disallowedPairs w = [] := by decide
  have h5 : w.Unknown known 5 := by decide
  have h6 : w.Unknown known 6 := by decide
  have hf : f.Accepts (Arc.ReadsRelative w known) [(5, 5), (1, 6), (5, 6)] :=
    ⟨0, rfl, .cons List.mem_cons_self (by decide)
      (.cons (List.mem_cons_of_mem _ List.mem_cons_self) (by decide)
        (.cons List.mem_cons_self (by decide) (.nil ⟨_, rfl, by decide⟩)))⟩
  obtain ⟨-, hinput, hclean⟩ := accepts_blank_iff hw hpairs h5 h6 (by decide) .input
  obtain ⟨-, houtput, -⟩ := accepts_blank_iff hw hpairs h5 h6 (by decide) .output
  refine ⟨hw, hpairs, h5, h6,
    (hinput _).2 ⟨by simp [Side.symbol, Label.epsilon], [(5, 5), (1, 6), (5, 6)], rfl, hf⟩,
    (houtput _).2 ⟨by simp [Side.symbol, Label.epsilon], [(5, 5), (1, 6), (5, 6)], rfl, hf⟩,
    ?_, hclean⟩
  intro h
  have hblank := ((hinput _).1 h).1 (5, 5) List.mem_cons_self
  exact absurd hblank (by decide)

end Network

end WildcardNet
