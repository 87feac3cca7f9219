import WildcardNet.Proofs.ArcOrder
/-!
# Changing the labels of a network

A function on pairs of labels changes the labels of all arcs in place. Trimming looks at targets
only, so it makes no difference whether labels are changed before or after it. The other passes look
at labels as well. They commute with a change of labels when what they do with one arc does, for the
labels that they are given before and after the change.
-/

namespace WildcardNet

/-- Changes the two labels of an arc. -/
def Arc.relabel (φ : Label × Label → Label × Label) (a : Arc) : Arc :=
  { a with input := (φ (a.input, a.output)).1, output := (φ (a.input, a.output)).2 }

namespace Network

variable {f g : Network} {φ : Label × Label → Label × Label}

/-- Changes the labels of all arcs. -/
def relabel (f : Network) (φ : Label × Label → Label × Label) : Network := f.mapArcs (Arc.relabel φ)

@[simp] theorem start_relabel (f : Network) (φ : Label × Label → Label × Label) :
    (f.relabel φ).start = f.start := rfl

@[simp] theorem size_relabel (f : Network) (φ : Label × Label → Label × Label) :
    (f.relabel φ).size = f.size :=
  size_mapArcs f _

@[simp] theorem final?_relabel (f : Network) (φ : Label × Label → Label × Label) (s : StateId) :
    (f.relabel φ).final? s = f.final? s :=
  final?_mapArcs f _ s

@[simp] theorem arcsFrom_relabel (f : Network) (φ : Label × Label → Label × Label) (s : StateId) :
    (f.relabel φ).arcsFrom s = (f.arcsFrom s).map (Arc.relabel φ) :=
  arcsFrom_mapArcs f _ s

theorem WellFormed.relabel (hf : f.WellFormed) (φ : Label × Label → Label × Label) :
    (f.relabel φ).WellFormed :=
  hf.mapArcs fun _ => rfl

theorem Alike.eq_relabel (h : Alike (fun xs ys => xs = ys.map (Arc.relabel φ)) f g) :
    f = g.relabel φ := by
  apply Alike.eq
  constructor
  · exact h.start_eq
  · rw [size_relabel, h.size_eq]
  · intro s
    rw [final?_relabel, h.final?_eq]
  · intro s
    rw [arcsFrom_relabel]
    exact h.arcs_related s

/-- An edit of arcs in place commutes with a change of labels if it does so for every arc. -/
theorem mapArcs_relabel {ψ ψ' : Arc → Arc} (h : ∀ a, ψ' (a.relabel φ) = (ψ a).relabel φ)
    (f : Network) : (f.relabel φ).mapArcs ψ' = (f.mapArcs ψ).relabel φ := by
  apply Alike.eq_relabel
  constructor
  · rfl
  · simp
  · simp
  · intro s
    simp only [arcsFrom_mapArcs, arcsFrom_relabel, List.map_map, Function.comp_def, h]

/-! ### Trimming and pruning -/

theorem keptArcs_relabel (keep : Array Bool) (arcs : List Arc) :
    keptArcs keep (arcs.map (Arc.relabel φ)) = (keptArcs keep arcs).map (Arc.relabel φ) := by
  simp only [keptArcs, List.filter_map, List.map_map]
  rfl

theorem trim_relabel (hf : f.WellFormed) (φ : Label × Label → Label × Label) :
    (f.relabel φ).trim.network = f.trim.network.relabel φ := by
  apply Alike.eq_relabel
  apply alike_trim (hf.relabel φ) hf rfl
  · -- Which states are useful depends on targets and final weights.
    intro s
    apply useful_congr (start_relabel f φ) fun s => isFinal_congr (final?_relabel f φ s)
    intro s t
    simp only [successors, arcsFrom_relabel, List.map_map]
    rfl
  · rfl
  · exact fun s _ => final?_relabel f φ s
  · intro keep _ s
    rw [arcsFrom_relabel, keptArcs_relabel]

variable {doomed doomed' : Arc → Bool}

theorem deleteArcs_relabel (h : ∀ a, doomed' (a.relabel φ) = doomed a) :
    (f.relabel φ).deleteArcs doomed' = (f.deleteArcs doomed).relabel φ := by
  apply Alike.eq_relabel
  constructor
  · rfl
  · simp
  · simp
  · intro s
    rw [arcsFrom_deleteArcs, arcsFrom_deleteArcs, arcsFrom_relabel, List.filter_map]
    simp only [Function.comp_def, h]

theorem pruneArcs_relabel (hf : f.WellFormed) (h : ∀ a, doomed' (a.relabel φ) = doomed a) :
    ((f.relabel φ).pruneArcs doomed').network = (f.pruneArcs doomed).network.relabel φ := by
  rw [pruneArcs_network_eq_trim (hf.relabel φ), pruneArcs_network_eq_trim hf, deleteArcs_relabel h,
    trim_relabel (hf.deleteArcs doomed)]

/-! ### Passes -/

variable {w w' : Wildcards} {alphabet alphabet' : List Label}

theorem strip_relabel (hf : f.WellFormed) (h : ∀ a, w'.onArc (a.relabel φ) = w.onArc a) :
    ((f.relabel φ).strip w').network = (f.strip w).network.relabel φ := by
  rw [strip_network (hf.relabel φ), strip_network hf, pruneArcs_relabel hf h]

theorem restore_relabel (hf : f.WellFormed)
    (hrepair : ∀ a, w'.repairArc (a.relabel φ) = (w.repairArc a).relabel φ)
    (hneeds : ∀ a, w'.needsTwin (a.relabel φ) = w.needsTwin a)
    (htwin : ∀ a, w'.twin (a.relabel φ) = (w.twin a).relabel φ) :
    ((f.relabel φ).restore w').network = (f.restore w).network.relabel φ := by
  have hf' := hf.relabel φ
  apply Alike.eq_relabel
  constructor
  · rw [start_restore hf', start_restore hf, start_relabel]
  · rw [size_restore hf', size_restore hf, size_relabel]
  · intro s
    rw [final?_restore hf', final?_restore hf, final?_relabel]
  · intro s
    rw [arcsFrom_restore hf', arcsFrom_restore hf, arcsFrom_relabel, List.filter_map]
    simp only [List.map_append, List.map_map, Function.comp_def, hrepair, hneeds, htwin]

theorem expand_relabel (hf : f.WellFormed)
    (h : ∀ a : Arc, w'.spellOut alphabet' (a.relabel φ).input (a.relabel φ).output =
      (w.spellOut alphabet a.input a.output).map φ) :
    ((f.relabel φ).expand w' alphabet').network = (f.expand w alphabet).network.relabel φ := by
  have hf' := hf.relabel φ
  have hpieces : ∀ a : Arc, w'.expandArc alphabet' (a.relabel φ) =
      (w.expandArc alphabet a).map (Arc.relabel φ) := by
    intro a
    simp only [Wildcards.expandArc, h, List.map_map]
    rfl
  apply Alike.eq_relabel
  constructor
  · rw [start_expand hf', start_expand hf, start_relabel]
  · rw [size_expand hf', size_expand hf, size_relabel]
  · intro s
    rw [final?_expand hf', final?_expand hf, final?_relabel]
  · intro s
    rw [arcsFrom_expand hf', arcsFrom_expand hf, arcsFrom_relabel, List.map_append,
      List.flatMap_map, List.map_flatMap]
    simp only [hpieces]

/-- The pieces of an arc with changed labels come from the pieces of its label pair. -/
theorem perm_expandArc_relabel {a : Arc}
    (h : (w'.spellOut alphabet' (a.relabel φ).input (a.relabel φ).output).Perm
      ((w.spellOut alphabet a.input a.output).map φ)) :
    (w'.expandArc alphabet' (a.relabel φ)).Perm
      ((w.expandArc alphabet a).map (Arc.relabel φ)) := by
  simpa [Wildcards.expandArc, Function.comp_def, Arc.relabel] using
    h.map fun p => { a with input := p.1, output := p.2 }

theorem expand_relabel_sameUpToOrder (hf : f.WellFormed)
    (h : ∀ s, ∀ a ∈ f.arcsFrom s,
      (w'.spellOut alphabet' (a.relabel φ).input (a.relabel φ).output).Perm
        ((w.spellOut alphabet a.input a.output).map φ)) :
    ((f.relabel φ).expand w' alphabet').network.SameUpToOrder
      ((f.expand w alphabet).network.relabel φ) := by
  have hf' := hf.relabel φ
  constructor
  · rw [start_expand hf', start_relabel, start_relabel, start_expand hf]
  · rw [size_expand hf', size_relabel, size_relabel, size_expand hf]
  · intro s
    rw [final?_expand hf', final?_relabel, final?_relabel, final?_expand hf]
  · intro s
    rw [arcsFrom_expand hf', arcsFrom_relabel, arcsFrom_relabel, arcsFrom_expand hf,
      List.map_append, List.flatMap_map, List.map_flatMap]
    apply List.Perm.append_left
    apply List.Perm.flatMap_left
    exact fun a ha => perm_expandArc_relabel (h s a ha)

end Network

end WildcardNet
