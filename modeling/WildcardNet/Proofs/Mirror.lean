import WildcardNet.Proofs.Reexpansion
import WildcardNet.Proofs.Relabelling
/-!
# The two sides of a network

The mirror image of a network reads what the network writes and writes what it reads. The passes
test the input side of an arc before its output side, and those for one side have a counterpart for
the other. Nevertheless no pass prefers a side: taken to the mirror image, a pass for one side is
the pass for the other, and a pass for both sides is itself. Expanding an arc with the other
wildcard on both sides lists its pieces in another order for the mirror image.
-/

namespace WildcardNet

/-! ### Labels and arcs -/

/-- The arc with its sides exchanged. -/
abbrev Arc.mirror : Arc → Arc := Arc.relabel Prod.swap

/-- The pairs are listed with both orders, so exchanging the sides only reorders them. -/
theorem perm_map_swap_flatMap_pair (symbols : List Label) (g : Label → Label × Label) :
    ((symbols.flatMap fun c => [g c, (g c).swap]).map Prod.swap).Perm
      (symbols.flatMap fun c => [g c, (g c).swap]) := by
  rw [List.map_flatMap]
  apply List.Perm.flatMap_left
  intro c _
  exact List.Perm.swap _ _ _

theorem perm_map_swap_crossPairs (symbols : List Label) :
    ((crossPairs symbols).map Prod.swap).Perm (crossPairs symbols) := by
  induction symbols with
  | nil => exact .nil
  | cons c rest ih =>
    rw [crossPairs, List.map_append]
    exact (perm_map_swap_flatMap_pair rest fun d => (c, d)).append ih

namespace Wildcards

variable {w : Wildcards} {input output : Label}

/-- The pieces of an allowed pair with its sides exchanged. -/
theorem perm_spellOut_swap (hw : w.identity ≠ w.other)
    (hpair : w.isDisallowedPair input output = false) (alphabet : List Label) :
    (w.spellOut alphabet output input).Perm ((w.spellOut alphabet input output).map Prod.swap) := by
  rcases pair_cases hpair with ⟨rfl, rfl⟩ | ⟨rfl, rfl⟩ | ⟨rfl, ho⟩ | ⟨hi, rfl⟩ | ⟨hi, ho⟩
  · rw [spellOut_identity hw, List.map_map]
    exact .refl _
  · rw [spellOut_other, List.map_append]
    exact ((perm_map_swap_flatMap_pair alphabet fun c => (c, w.other)).append
      (perm_map_swap_crossPairs alphabet)).symm
  · rw [spellOut_other_output ho, spellOut_other_input ho, List.map_map]
    exact .refl _
  · rw [spellOut_other_input hi, spellOut_other_output hi, List.map_map]
    exact .refl _
  · rw [spellOut_of_not_wildcard hi ho, spellOut_of_not_wildcard ho hi]
    exact .nil

theorem isDisallowedPair_comm (w : Wildcards) (input output : Label) :
    w.isDisallowedPair output input = w.isDisallowedPair input output := by
  simp only [isDisallowedPair, iff_comm]

theorem mirror_demoteArc (w : Wildcards) (side : Side) (a : Arc) :
    (w.demoteArc side a.mirror).mirror = w.demoteArc side.opposite a := by
  cases side <;> rfl

theorem mirror_projectArc (w : Wildcards) (side : Side) (a : Arc) :
    (w.projectArc side a.mirror).mirror = w.projectArc side.opposite a := by
  cases side <;> rfl

theorem mirror_blankArc (w : Wildcards) (side : Side) (a : Arc) :
    (w.blankArc side a.mirror).mirror = w.blankArc side.opposite a := by
  cases side <;> rfl

theorem repairArc_mirror (w : Wildcards) (a : Arc) :
    w.repairArc a.mirror = (w.repairArc a).mirror := by
  obtain ⟨i, o, weight, target⟩ := a
  by_cases hi : i = w.identity <;> by_cases ho : o = w.identity <;>
    simp [repairArc, Arc.relabel, hi, ho]

theorem needsTwin_mirror (hw : w.identity ≠ w.other) (a : Arc) :
    w.needsTwin a.mirror = w.needsTwin a := by
  -- Which side is asked for the identity wildcard makes no difference if there are two wildcards.
  rw [Bool.eq_iff_iff, needsTwin_iff hw, needsTwin_iff hw]
  exact and_comm

theorem onArc_mirror (w : Wildcards) (a : Arc) : w.onArc a.mirror = w.onArc a :=
  Bool.or_comm _ _

end Wildcards

/-! ### Networks -/

namespace Network

variable {f : Network} {w : Wildcards}

/-- The network with the sides of all arcs exchanged. -/
abbrev mirror (f : Network) : Network := f.relabel Prod.swap

theorem mapArcs_mapArcs (f : Network) (φ ψ : Arc → Arc) :
    (f.mapArcs φ).mapArcs ψ = f.mapArcs (ψ ∘ φ) := by
  simp [mapArcs, Function.comp_def]

/-- A change of arcs that does to one side what another does to the opposite side. -/
theorem mirror_mapArcs_mirror {φ ψ : Arc → Arc} (h : ∀ a, (φ a.mirror).mirror = ψ a)
    (f : Network) : (f.mirror.mapArcs φ).mirror = f.mapArcs ψ := by
  simp only [mirror, relabel, mapArcs_mapArcs]
  congr 1
  funext a
  exact h a

theorem restore_mirror (hf : f.WellFormed) (hw : w.identity ≠ w.other) :
    (f.mirror.restore w).network = (f.restore w).network.mirror :=
  restore_relabel hf w.repairArc_mirror (Wildcards.needsTwin_mirror hw) fun _ => rfl

theorem strip_mirror (hf : f.WellFormed) (w : Wildcards) :
    (f.mirror.strip w).network = (f.strip w).network.mirror :=
  strip_relabel hf w.onArc_mirror

theorem expand_mirror_sameUpToOrder (hf : f.WellFormed) (hw : w.identity ≠ w.other)
    (hclean : f.Clean w) (alphabet : List Label) :
    (f.mirror.expand w alphabet).network.SameUpToOrder (f.expand w alphabet).network.mirror :=
  expand_relabel_sameUpToOrder hf fun s a ha =>
    Wildcards.perm_spellOut_swap hw (hclean s a ha) alphabet

theorem close_mirror_sameUpToOrder (hf : f.WellFormed) (hw : w.identity ≠ w.other)
    (hclean : f.Clean w) (alphabet : List Label) :
    (f.mirror.close w alphabet).network.SameUpToOrder (f.close w alphabet).network.mirror := by
  have hmirror := hf.relabel Prod.swap
  rw [close_network hmirror, close_network hf, ← strip_mirror (hf.expand w alphabet)]
  exact (expand_mirror_sameUpToOrder hf hw hclean alphabet).strip (hmirror.expand w alphabet) w

/-! ### Reports -/

theorem anyArc_mapArcs (f : Network) (φ : Arc → Arc) (p : Arc → Bool) :
    (f.mapArcs φ).anyArc p = f.anyArc fun a => p (φ a) := by
  simp [anyArc, mapArcs, Function.comp_def]

theorem containsWildcard_mirror (f : Network) (w : Wildcards) :
    f.mirror.containsWildcard w = f.containsWildcard w := by
  rw [containsWildcard, mirror, relabel, anyArc_mapArcs, containsWildcard]
  congr 1
  funext a
  exact w.onArc_mirror a

theorem isSemanticAcceptor_iff :
    f.isSemanticAcceptor w = true ↔
      ∀ s, ∀ a ∈ f.arcsFrom s, a.input = a.output ∧ a.input ≠ w.other := by
  rw [← forall_arc_iff]
  simp only [isSemanticAcceptor, isAcceptor, Bool.and_eq_true, allArcs_eq_true_iff, Arc.isIdentity,
    beq_iff_eq, bne_iff_ne, ← forall_and]

theorem isSemanticAcceptor_mirror (f : Network) (w : Wildcards) :
    f.mirror.isSemanticAcceptor w = f.isSemanticAcceptor w := by
  rw [Bool.eq_iff_iff, isSemanticAcceptor_iff, isSemanticAcceptor_iff]
  simp only [arcsFrom_relabel, List.forall_mem_map]
  refine forall_congr' fun s => forall_congr' fun a => imp_congr_right fun _ => ?_
  constructor
  · rintro ⟨heq, hother⟩
    exact ⟨heq.symm, fun hi => hother (heq.trans hi)⟩
  · rintro ⟨heq, hother⟩
    exact ⟨heq.symm, fun ho => hother (heq.trans ho)⟩

theorem disallowedPairs_mirror (f : Network) (w : Wildcards) :
    f.mirror.disallowedPairs w = (f.disallowedPairs w).map fun p =>
      { p with input := p.output, output := p.input } := by
  have hpair : ∀ a : Arc, w.isDisallowedPair a.mirror.input a.mirror.output =
      w.isDisallowedPair a.input a.output := fun a => w.isDisallowedPair_comm a.input a.output
  simp only [disallowedPairs, mirror, relabel, mapArcs, Array.toList_map, List.zipIdx_map,
    List.flatMap_map, List.map_flatMap, List.filter_map, List.map_map, Function.comp_def,
    Prod.map, hpair]
  rfl

/-- No pass and no report prefers a side. For the mirror image of a network, the passes for one side
do what those for the opposite side do for the network, and restoring, stripping and the reports
agree. Expanding and closing agree up to the order of arcs if the network is clean. -/
theorem mirror_symmetry (hw : w.check = .ok ()) (hf : f.WellFormed) :
    (∀ side : Side,
      (f.demote w side.opposite).network = (f.mirror.demote w side).network.mirror ∧
      (f.project w side.opposite).network = (f.mirror.project w side).network.mirror ∧
      (f.blank w side.opposite).network = (f.mirror.blank w side).network.mirror) ∧
    ((f.restore w).result = .ok () ∧ (f.mirror.restore w).result = .ok () ∧
      (f.mirror.restore w).network = (f.restore w).network.mirror) ∧
    ((f.strip w).result = .ok () ∧ (f.mirror.strip w).result = .ok () ∧
      (f.mirror.strip w).network = (f.strip w).network.mirror) ∧
    (f.mirror.containsWildcard w = f.containsWildcard w ∧
      f.mirror.isSemanticAcceptor w = f.isSemanticAcceptor w ∧
      (f.mirror.disallowedPairs w).map (fun p => (p.state, p.position)) =
        (f.disallowedPairs w).map fun p => (p.state, p.position)) ∧
    (f.disallowedPairs w = [] → ∀ alphabet, checkAlphabet w alphabet = .ok alphabet →
      ((f.expand w alphabet).result = .ok alphabet ∧
        (f.mirror.expand w alphabet).result = .ok alphabet ∧
        (f.mirror.expand w alphabet).network.SameUpToOrder (f.expand w alphabet).network.mirror) ∧
      (f.close w alphabet).result = .ok alphabet ∧
        (f.mirror.close w alphabet).result = .ok alphabet ∧
        (f.mirror.close w alphabet).network.SameUpToOrder (f.close w alphabet).network.mirror) := by
  obtain ⟨-, -, hne⟩ := Wildcards.check_eq_ok_iff.1 hw
  have hmirror : f.mirror.WellFormed := hf.relabel Prod.swap
  refine ⟨fun side => ⟨?_, ?_, ?_⟩, ?_, ?_, ⟨?_, ?_, ?_⟩, fun hpairs alphabet halphabet => ?_⟩
  · exact (mirror_mapArcs_mirror (w.mirror_demoteArc side) f).symm
  · exact (mirror_mapArcs_mirror (w.mirror_projectArc side) f).symm
  · exact (mirror_mapArcs_mirror (w.mirror_blankArc side) f).symm
  · exact ⟨restore_result hf w, restore_result hmirror w, restore_mirror hf hne⟩
  · exact ⟨strip_result hf w, strip_result hmirror w, strip_mirror hf w⟩
  · exact containsWildcard_mirror f w
  · exact isSemanticAcceptor_mirror f w
  · rw [disallowedPairs_mirror, List.map_map]
    rfl
  · obtain ⟨-, -, hnodup⟩ := checkAlphabet_eq_ok_iff.1 halphabet
    have hclean := clean_iff.2 hpairs
    rw [expand_result hf, expand_result hmirror, close_result hf, close_result hmirror,
      eraseDups_of_nodup hnodup]
    exact ⟨⟨rfl, rfl, expand_mirror_sameUpToOrder hf hne hclean alphabet⟩, rfl, rfl,
      close_mirror_sameUpToOrder hf hne hclean alphabet⟩

/-- Every kind of wildcard pair stands on an arc. The pieces of the other wildcard on both sides come
in another order for the mirror image. -/
theorem mirror_symmetry_all_pairs :
    let w : Wildcards := ⟨100, 101⟩
    let f : Network := ⟨#[⟨Weight.zero, [⟨101, 101, Weight.one, 1⟩, ⟨100, 100, Weight.one, 1⟩,
      ⟨7, 101, Weight.one, 0⟩]⟩, ⟨Weight.one, [⟨101, 8, Weight.one, 0⟩]⟩], some 0⟩
    w.check = .ok () ∧ f.WellFormed ∧ f.disallowedPairs w = [] ∧
      checkAlphabet w [5, 6] = .ok [5, 6] ∧
      (f.mirror.restore w).network = (f.restore w).network.mirror ∧
      (f.mirror.expand w [5, 6]).network ≠ (f.expand w [5, 6]).network.mirror ∧
      (f.mirror.expand w [5, 6]).network.SameUpToOrder (f.expand w [5, 6]).network.mirror ∧
      (f.mirror.close w [5, 6]).network.SameUpToOrder (f.close w [5, 6]).network.mirror := by
  intro w f
  have hw : w.check = .ok () := by decide
  have hf : f.WellFormed := isWellFormed_eq_true_iff.1 (by decide)
  have hpairs : f.disallowedPairs w = [] := by decide
  have halphabet : checkAlphabet w [5, 6] = .ok [5, 6] := by decide
  obtain ⟨-, ⟨-, -, hrestore⟩, -, -, hspelled⟩ := mirror_symmetry hw hf
  obtain ⟨⟨-, -, hexpand⟩, -, -, hclose⟩ := hspelled hpairs [5, 6] halphabet
  exact ⟨hw, hf, hpairs, halphabet, hrestore, by decide +kernel, hexpand, hclose⟩

end Network

end WildcardNet
