import WildcardNet.Proofs.ArcOrder
/-!
# Networks that have settled

Stripping and closing leave no wildcard on any arc and no state that is off every successful run. On
such a network the passes that deal with wildcards have nothing to do. Demoting, restoring and
expanding find no arc to work on. Stripping and closing add a state for doomed arcs, but no arc is
led there, so the trimming that follows takes just that state away again.
-/

namespace WildcardNet

namespace Wildcards

variable {w : Wildcards} {a : Arc}

theorem onArc_eq_false_iff :
    w.onArc a = false ↔ (a.input ≠ w.identity ∧ a.input ≠ w.other) ∧
      a.output ≠ w.identity ∧ a.output ≠ w.other := by
  simp [onArc, isWildcard]

theorem demoteArc_of_plain (h : w.onArc a = false) (side : Side) : w.demoteArc side a = a := by
  obtain ⟨hi, ho⟩ := onArc_eq_false_iff.1 h
  cases side with
  | input => simp [demoteArc, demoteLabel, Arc.label, Arc.setLabel, hi.1]
  | output => simp [demoteArc, demoteLabel, Arc.label, Arc.setLabel, ho.1]

theorem repairArc_of_plain (h : w.onArc a = false) : w.repairArc a = a := by
  obtain ⟨hi, ho⟩ := onArc_eq_false_iff.1 h
  simp [repairArc, hi.1, ho.1]

theorem needsTwin_of_plain (h : w.onArc a = false) : w.needsTwin a = false := by
  obtain ⟨hi, -⟩ := onArc_eq_false_iff.1 h
  simp [needsTwin, hi.2]

theorem expandArc_of_plain (h : w.onArc a = false) (alphabet : List Label) :
    w.expandArc alphabet a = [] := by
  obtain ⟨hi, ho⟩ := onArc_eq_false_iff.1 h
  simp [expandArc, spellOut, hi, ho]

end Wildcards

namespace Network

variable {f : Network} {w : Wildcards}

/-! ### Edits that find nothing to do -/

theorem mapArcs_eq_self {φ : Arc → Arc} (h : ∀ s, ∀ a ∈ f.arcsFrom s, φ a = a) :
    f.mapArcs φ = f := by
  apply eq_of_final?_of_arcsFrom (start_mapArcs f φ) (size_mapArcs f φ)
  · exact fun s _ => final?_mapArcs f φ s
  intro s
  rw [arcsFrom_mapArcs, List.map_congr_left (h s), List.map_id']

theorem deleteArcs_eq_self {doomed : Arc → Bool} (h : ∀ s, ∀ a ∈ f.arcsFrom s, doomed a = false) :
    f.deleteArcs doomed = f := by
  apply eq_of_final?_of_arcsFrom (start_deleteArcs f doomed) (size_deleteArcs f doomed)
  · exact fun s _ => final?_deleteArcs f doomed s
  intro s
  rw [arcsFrom_deleteArcs, List.filter_eq_self]
  intro a ha
  rw [h s a ha, Bool.not_false]

theorem eq_empty_of_size_eq_zero (hsize : f.size = 0) (hstart : f.start = none) : f = {} := by
  apply eq_of_final?_of_arcsFrom hstart hsize
  · intro s hs
    exact absurd hs (Nat.not_lt_zero s)
  · intro s
    rw [arcsFrom_of_size_le (by omega), arcsFrom_of_size_le (Nat.zero_le s)]

theorem trim_network_eq_self (hf : f.WellFormed) (huseful : ∀ s < f.size, f.Useful s) :
    f.trim.network = f := by
  cases hstart : f.start with
  | none =>
    -- Without a start no state is useful, so there is none.
    have hsize : f.size = 0 := by
      by_contra hne
      obtain ⟨⟨start, hmem, -⟩, -⟩ := huseful 0 (by omega)
      rw [hstart] at hmem
      cases hmem
    rw [eq_empty_of_size_eq_zero hsize hstart]
    rfl
  | some start =>
    have hmark : ∀ b ∈ f.useful start, b = true := by
      intro b hb
      obtain ⟨s, hs, rfl⟩ := Array.mem_iff_getElem.1 hb
      have hkept := (getElem?_useful_iff hf hstart).2 (huseful s (size_useful f start ▸ hs))
      rw [Array.getElem?_eq_getElem hs] at hkept
      exact Option.some.inj hkept
    rw [trim_network_of_useful hf hstart (huseful start (hf.1 start hstart))]
    exact restrict_eq_self hf (size_useful f start) hmark

theorem strip_network_eq_trim (hf : f.WellFormed) (w : Wildcards) :
    (f.strip w).network = (f.deleteArcs w.onArc).trim.network := by
  rw [strip_network hf, pruneArcs_network_eq_trim hf]

/-! ### Settled networks -/

theorem containsWildcard_eq_false_iff :
    f.containsWildcard w = false ↔ ∀ s, ∀ a ∈ f.arcsFrom s, w.onArc a = false := by
  have hany : f.containsWildcard w = f.anyArc w.onArc := rfl
  rw [hany, ← forall_arc_iff, ← Bool.not_eq_true, anyArc_eq_true_iff]
  simp

/-- No wildcard stands on an arc, and every state lies on a run from the start to a final state. -/
structure Settled (f : Network) (w : Wildcards) : Prop where
  wellFormed : f.WellFormed
  plain : ∀ s, ∀ a ∈ f.arcsFrom s, w.onArc a = false
  useful : ∀ s < f.size, f.Useful s

theorem settled_strip (hf : f.WellFormed) (w : Wildcards) : (f.strip w).network.Settled w := by
  have hdelete := hf.deleteArcs w.onArc
  rw [strip_network_eq_trim hf]
  refine ⟨hdelete.trim, ?_, useful_trim hdelete⟩
  apply forall_pair_trim (p := fun i o => (w.isWildcard i || w.isWildcard o) = false) hdelete
  intro s a ha
  rw [arcsFrom_deleteArcs] at ha
  obtain ⟨-, hspared⟩ := List.mem_filter.1 ha
  rw [Bool.not_eq_true'] at hspared
  exact hspared

theorem settled_close (hf : f.WellFormed) (w : Wildcards) (alphabet : List Label) :
    (f.close w alphabet).network.Settled w := by
  rw [close_network hf]
  exact settled_strip (hf.expand w alphabet) w

namespace Settled

theorem demote_network (h : f.Settled w) (side : Side) : (f.demote w side).network = f :=
  mapArcs_eq_self fun s a ha => Wildcards.demoteArc_of_plain (h.plain s a ha) side

theorem restore_network (h : f.Settled w) : (f.restore w).network = f := by
  have hf := h.wellFormed
  apply eq_of_final?_of_arcsFrom (start_restore hf) (size_restore hf) fun s _ => final?_restore hf s
  intro s
  have hrepair : ∀ a ∈ f.arcsFrom s, w.repairArc a = a :=
    fun a ha => Wildcards.repairArc_of_plain (h.plain s a ha)
  have htwins : (f.arcsFrom s).filter w.needsTwin = [] := by
    rw [List.filter_eq_nil_iff]
    intro a ha
    rw [Wildcards.needsTwin_of_plain (h.plain s a ha)]
    exact Bool.false_ne_true
  rw [arcsFrom_restore hf, htwins, List.map_nil, List.append_nil, List.map_congr_left hrepair,
    List.map_id']

theorem expand_network (h : f.Settled w) (alphabet : List Label) :
    (f.expand w alphabet).network = f := by
  have hf := h.wellFormed
  apply eq_of_final?_of_arcsFrom (start_expand hf) (size_expand hf) fun s _ => final?_expand hf s
  intro s
  have hpieces : (f.arcsFrom s).flatMap (w.expandArc alphabet) = [] := by
    rw [List.flatMap_eq_nil_iff]
    exact fun a ha => Wildcards.expandArc_of_plain (h.plain s a ha) alphabet
  rw [arcsFrom_expand hf, hpieces, List.append_nil]

theorem strip_network (h : f.Settled w) : (f.strip w).network = f := by
  rw [strip_network_eq_trim h.wellFormed, deleteArcs_eq_self h.plain]
  exact trim_network_eq_self h.wellFormed h.useful

theorem close_network (h : f.Settled w) (alphabet : List Label) :
    (f.close w alphabet).network = f := by
  rw [Network.close_network h.wellFormed, h.expand_network, h.strip_network]

end Settled

end Network

/-! ### Sequences of passes -/

/-- The passes that deal with nothing but wildcards, each with the alphabet that it is given. -/
inductive WildcardPass
  | demote (side : Side)
  | restore
  | expand (alphabet : List Label)
  | strip
  | close (alphabet : List Label)

namespace WildcardPass

variable {f : Network} {w : Wildcards}

def run (w : Wildcards) (f : Network) : WildcardPass → Outcome NetworkError Unit
  | .demote side => f.demote w side
  | .restore => f.restore w
  | .expand alphabet => (f.expand w alphabet).andThen fun g _ => ⟨g, [], .ok ()⟩
  | .strip => f.strip w
  | .close alphabet => (f.close w alphabet).andThen fun g _ => ⟨g, [], .ok ()⟩

/-- Runs the passes one after the other, up to the first that breaks off. -/
def runAll (w : Wildcards) (f : Network) : List WildcardPass → Outcome NetworkError Unit
  | [] => ⟨f, [], .ok ()⟩
  | p :: ps => (p.run w f).andThen fun g _ => runAll w g ps

theorem run_of_settled (h : f.Settled w) (p : WildcardPass) :
    (p.run w f).result = .ok () ∧ (p.run w f).network = f := by
  have hf := h.wellFormed
  cases p with
  | demote side => exact ⟨rfl, h.demote_network side⟩
  | restore => exact ⟨Network.restore_result hf w, h.restore_network⟩
  | expand alphabet =>
    have hresult := @Network.expand_result f w alphabet hf
    rw [run, Outcome.andThen_result_of_ok hresult, Outcome.andThen_network_of_ok hresult]
    exact ⟨rfl, h.expand_network alphabet⟩
  | strip => exact ⟨Network.strip_result hf w, h.strip_network⟩
  | close alphabet =>
    have hresult := Network.close_result hf w alphabet
    rw [run, Outcome.andThen_result_of_ok hresult, Outcome.andThen_network_of_ok hresult]
    exact ⟨rfl, h.close_network alphabet⟩

theorem runAll_of_settled (h : f.Settled w) (ps : List WildcardPass) :
    (runAll w f ps).result = .ok () ∧ (runAll w f ps).network = f := by
  induction ps with
  | nil => exact ⟨rfl, rfl⟩
  | cons p ps ih =>
    obtain ⟨hresult, hnetwork⟩ := run_of_settled h p
    rw [runAll, Outcome.andThen_result_of_ok hresult, Outcome.andThen_network_of_ok hresult,
      hnetwork]
    exact ih

/-- Stripping and closing a well-formed network succeed and leave networks without wildcards in
which every state is useful. Whatever wildcard passes are run on these succeed and leave them as
they are. -/
theorem runAll_stripped_or_closed (hf : f.WellFormed) (w : Wildcards) (alphabet : List Label) :
    (f.strip w).result = .ok () ∧ (f.close w alphabet).result = .ok alphabet.eraseDups ∧
      ∀ g ∈ [(f.strip w).network, (f.close w alphabet).network],
        g.containsWildcard w = false ∧ (∀ s < g.size, g.Useful s) ∧
          ∀ ps : List WildcardPass,
            (runAll w g ps).result = .ok () ∧ (runAll w g ps).network = g := by
  refine ⟨Network.strip_result hf w, Network.close_result hf w alphabet, ?_⟩
  intro g hg
  have hsettled : g.Settled w := by
    rcases List.mem_pair.1 hg with rfl | rfl
    · exact Network.settled_strip hf w
    · exact Network.settled_close hf w alphabet
  exact ⟨Network.containsWildcard_eq_false_iff.2 hsettled.plain, hsettled.useful,
    runAll_of_settled hsettled⟩

/-- One state can only be reached through a wildcard that is not spelled out, and another is left by
wildcards only. What is closed over two symbols stays as it is under passes over other symbols. -/
theorem runAll_stripped_or_closed_twice :
    let w : Wildcards := ⟨100, 101⟩
    let f : Network := ⟨#[⟨Weight.zero, [⟨101, 7, Weight.one, 2⟩, ⟨3, 100, Weight.one, 1⟩]⟩,
      ⟨Weight.zero, [⟨1, 1, Weight.one, 2⟩]⟩,
      ⟨Weight.one, [⟨9, 101, Weight.one, 2⟩, ⟨4, 4, Weight.one, 3⟩]⟩,
      ⟨Weight.zero, [⟨100, 100, Weight.one, 3⟩]⟩], some 0⟩
    let g : Network := ⟨#[⟨Weight.zero, [⟨5, 7, Weight.one, 1⟩, ⟨6, 7, Weight.one, 1⟩]⟩,
      ⟨Weight.one, [⟨9, 5, Weight.one, 1⟩, ⟨9, 6, Weight.one, 1⟩]⟩], some 0⟩
    let ps : List WildcardPass := [.close [8], .demote .input, .restore, .expand [3, 5], .strip]
    f.WellFormed ∧ (f.close w [5, 6]).network = g ∧
      (runAll w g ps).result = .ok () ∧ (runAll w g ps).network = g ∧
      (f.strip w).network = {} ∧ (runAll w {} ps).network = {} := by
  intro w f g ps
  have hf : f.WellFormed := Network.isWellFormed_eq_true_iff.1 (by decide)
  have hclosed : (f.close w [5, 6]).network = g := by decide +kernel
  have hstripped : (f.strip w).network = {} := by decide +kernel
  obtain ⟨-, -, hboth⟩ := runAll_stripped_or_closed hf w [5, 6]
  rw [hclosed, hstripped] at hboth
  obtain ⟨hresult, hnetwork⟩ := (hboth g (by simp)).2.2 ps
  exact ⟨hf, hclosed, hresult, hnetwork, hstripped, ((hboth {} (by simp)).2.2 ps).2⟩

end WildcardPass

end WildcardNet
