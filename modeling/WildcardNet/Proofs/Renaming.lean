import WildcardNet.Proofs.Relabelling
import WildcardNet.Proofs.Reordering
/-!
# Labels mean nothing beyond their roles

A renaming takes every label to another one, no two to the same, and leaves epsilon as it is. Passes
compare labels with one another, with epsilon and with the labels in their settings. Nothing but
sorting looks at the number behind a label. With renamed settings a pass therefore does to the
renamed network what it did to the network. Synchronizing sorts, so it may leave the renamed arcs of
a state in another order.
-/

namespace WildcardNet

structure Renaming where
  apply : Label → Label
  injective : Function.Injective apply
  epsilon : apply Label.epsilon = Label.epsilon

namespace Renaming

instance : CoeFun Renaming fun _ => Label → Label := ⟨apply⟩

variable (r : Renaming) {x y : Label}

@[simp] theorem eq_iff : r x = r y ↔ x = y := r.injective.eq_iff

@[simp] theorem eq_epsilon_iff : r x = Label.epsilon ↔ x = Label.epsilon :=
  r.injective.eq_iff' r.epsilon

@[simp] theorem beq_eq : (r x == r y) = (x == y) := by
  rw [Bool.eq_iff_iff, beq_iff_eq, beq_iff_eq, r.eq_iff]

def pair (p : Label × Label) : Label × Label := (r p.1, r p.2)

end Renaming

variable {r : Renaming}

/-! ### Renamed arcs and settings -/

abbrev Arc.rename (r : Renaming) : Arc → Arc := Arc.relabel r.pair

abbrev Network.rename (f : Network) (r : Renaming) : Network := f.relabel r.pair

def Wildcards.rename (w : Wildcards) (r : Renaming) : Wildcards := ⟨r w.identity, r w.other⟩

def RuleMarks.rename (rule : RuleMarks) (r : Renaming) : RuleMarks :=
  ⟨r rule.separator, r rule.hardEpsilon⟩

def Settings.rename (c : Settings) (r : Renaming) : Settings where
  wildcards := c.wildcards.rename r
  rule := c.rule.map fun rule => rule.rename r
  alphabet := c.alphabet.map r

def LabelError.rename (r : Renaming) : LabelError → LabelError
  | .roleIsEpsilon role => .roleIsEpsilon role
  | .wildcardsEqual label => .wildcardsEqual (r label)
  | .roleIsWildcard role label => .roleIsWildcard role (r label)
  | .ruleMarksEqual label => .ruleMarksEqual (r label)
  | .notASymbol symbol => .notASymbol (r symbol)
  | .repeatedSymbol symbol => .repeatedSymbol (r symbol)

/-- The same error about the renamed labels. -/
def PassError.rename (r : Renaming) : PassError → PassError
  | .label e => .label (e.rename r)
  | .network e => .network e
  | .ruleMissing => .ruleMissing

theorem crossPairs_map (r : Renaming) (symbols : List Label) :
    crossPairs (symbols.map r) = (crossPairs symbols).map r.pair := by
  induction symbols with
  | nil => rfl
  | cons c rest ih =>
    rw [List.map_cons, crossPairs, crossPairs, List.map_append, ih, List.flatMap_map,
      List.map_flatMap]
    rfl

/-! ### What passes do with one arc -/

namespace Wildcards

variable (w : Wildcards) (r : Renaming)

theorem isWildcard_rename (x : Label) : (w.rename r).isWildcard (r x) = w.isWildcard x := by
  simp only [isWildcard, rename, r.beq_eq]

theorem isConcrete_rename (x : Label) : (w.rename r).isConcrete (r x) = w.isConcrete x := by
  rw [Bool.eq_iff_iff, isConcrete_eq_true_iff, isConcrete_eq_true_iff]
  simp [rename]

theorem onArc_rename (a : Arc) : (w.rename r).onArc (a.rename r) = w.onArc a := by
  simp only [onArc, Arc.relabel, Renaming.pair, isWildcard_rename]

theorem demoteLabel_rename (x : Label) :
    (w.rename r).demoteLabel (r x) = r (w.demoteLabel x) := by
  simp only [demoteLabel, rename, r.eq_iff]
  split <;> rfl

theorem demoteArc_rename (side : Side) (a : Arc) :
    (w.rename r).demoteArc side (a.rename r) = (w.demoteArc side a).rename r := by
  cases side with
  | input => simp [demoteArc, Arc.setLabel, Arc.label, Arc.relabel, Renaming.pair,
      demoteLabel_rename]
  | output => simp [demoteArc, Arc.setLabel, Arc.label, Arc.relabel, Renaming.pair,
      demoteLabel_rename]

theorem projectArc_rename (side : Side) (a : Arc) :
    (w.rename r).projectArc side (a.rename r) = (w.projectArc side a).rename r := by
  have hlabel : (a.rename r).label side = r (a.label side) := by cases side <;> rfl
  simp only [projectArc, hlabel, rename, r.eq_iff]
  split <;> rfl

theorem blankArc_rename (side : Side) (a : Arc) :
    (w.rename r).blankArc side (a.rename r) = (w.blankArc side a).rename r := by
  rw [blankArc, blankArc, demoteArc_rename]
  cases side with
  | input => simp [Arc.setLabel, Arc.relabel, Renaming.pair, r.epsilon]
  | output => simp [Arc.setLabel, Arc.relabel, Renaming.pair, r.epsilon]

theorem repairArc_rename (a : Arc) :
    (w.rename r).repairArc (a.rename r) = (w.repairArc a).rename r := by
  simp only [repairArc, rename, Arc.relabel, Renaming.pair, r.eq_iff]
  split
  · split <;> rfl
  · split <;> rfl

theorem needsTwin_rename (a : Arc) : (w.rename r).needsTwin (a.rename r) = w.needsTwin a := by
  simp only [needsTwin, bne, rename, Arc.relabel, Renaming.pair, r.beq_eq]

theorem spellOut_rename (alphabet : List Label) (input output : Label) :
    (w.rename r).spellOut (alphabet.map r) (r input) (r output) =
      (w.spellOut alphabet input output).map r.pair := by
  simp only [spellOut, rename, r.eq_iff]
  split
  · split
    · rw [crossPairs_map, List.map_append, List.flatMap_map, List.map_flatMap]
      rfl
    · rw [List.map_map, List.map_map]
      rfl
  · split
    · rw [List.map_map, List.map_map]
      rfl
    · split
      · rw [List.map_map, List.map_map]
        rfl
      · rfl

theorem unbind_rename (x y : Label) :
    (w.rename r).unbind (r x) (r y) = r.pair (w.unbind x y) := by
  simp only [unbind, rename, r.eq_iff, ne_eq]
  split
  · rfl
  · split <;> rfl

end Wildcards

/-- An alphabet is refused at the same symbol when everything is renamed. -/
theorem checkSymbols_rename (w : Wildcards) (r : Renaming) (seen symbols : List Label) :
    checkSymbols (w.rename r) (seen.map r) (symbols.map r) =
      (checkSymbols w seen symbols).mapError (LabelError.rename r) := by
  induction symbols generalizing seen with
  | nil => rfl
  | cons c rest ih =>
    have hseen : r c ∈ seen.map r ↔ c ∈ seen := List.mem_map_of_injective r.injective
    have hrest := ih (c :: seen)
    rw [List.map_cons] at hrest
    simp only [List.map_cons, checkSymbols, w.isConcrete_rename, hseen, hrest]
    split
    · split <;> rfl
    · rfl

theorem Settings.checkedAlphabet_rename (c : Settings) (r : Renaming) :
    (c.rename r).checkedAlphabet =
      (c.checkedAlphabet.mapError (LabelError.rename r)).map (List.map r) := by
  have h := checkSymbols_rename c.wildcards r [] c.alphabet
  simp only [List.map_nil] at h
  simp only [checkedAlphabet, checkAlphabet, rename, h]
  cases checkSymbols c.wildcards [] c.alphabet <;> rfl

theorem Settings.exists_error_of_rename {c : Settings} {e : LabelError}
    (h : (c.rename r).checkedAlphabet = .error e) : ∃ e', c.checkedAlphabet = .error e' := by
  rw [checkedAlphabet_rename] at h
  cases hchecked : c.checkedAlphabet with
  | ok alphabet =>
    rw [hchecked] at h
    cases h
  | error e' => exact ⟨e', rfl⟩

/-! ### Triples -/

def Triple.rename (r : Renaming) (x : Triple) : Triple :=
  ⟨x.first.rename r, x.bridge.rename r, x.last.rename r⟩

namespace RuleMarks

variable (rule : RuleMarks) (r : Renaming)

theorem weaken_rename (x : Label) : (rule.rename r).weaken (r x) = r (rule.weaken x) := by
  simp only [weaken, rename, r.eq_iff]
  split
  · exact r.epsilon.symm
  · rfl

theorem joins_rename (x : Triple) : (x.rename r).Joins (rule.rename r) ↔ x.Joins rule := by
  simp only [Triple.Joins, Triple.rename, Arc.relabel, Renaming.pair, weaken_rename, r.eq_iff,
    r.eq_epsilon_iff]
  simp only [rename, r.eq_iff]

theorem joint_rename (w : Wildcards) (x : Triple) :
    (x.rename r).joint (rule.rename r) (w.rename r) = (x.joint rule w).rename r := by
  simp only [Triple.joint, Triple.rename, Arc.relabel, Renaming.pair, weaken_rename,
    w.unbind_rename]

end RuleMarks

namespace Network

variable {f : Network}

theorem triplesAfter_rename (f : Network) (r : Renaming) (a : Arc) :
    (f.rename r).triplesAfter (a.rename r) = (f.triplesAfter a).map (Triple.rename r) := by
  simp only [triplesAfter, arcsFrom_relabel, List.map_flatMap, List.flatMap_map, List.map_map]
  rfl

theorem joinsAfter_rename (f : Network) (r : Renaming) (rule : RuleMarks) (arcs : List Arc) :
    (f.rename r).joinsAfter (rule.rename r) (arcs.map (Arc.rename r)) =
      (f.joinsAfter rule arcs).map (Triple.rename r) := by
  simp only [joinsAfter, List.flatMap_map, triplesAfter_rename, ← List.map_flatMap,
    List.filter_map, Function.comp_def, rule.joins_rename]

theorem joined_rename (f : Network) (r : Renaming) (rule : RuleMarks) (w : Wildcards) :
    (f.rename r).joined (rule.rename r) (w.rename r) = (f.joined rule w).rename r := by
  have hseparator : ∀ a : Arc,
      (a.rename r).input = (rule.rename r).separator ↔ a.input = rule.separator :=
    fun _ => r.eq_iff
  have hjoints : ∀ triples : List Triple,
      (triples.map (Triple.rename r)).map (Triple.joint (rule.rename r) (w.rename r)) =
        (triples.map (Triple.joint rule w)).map (Arc.rename r) := by
    intro triples
    simp only [List.map_map, Function.comp_def, rule.joint_rename]
  apply Alike.eq_relabel
  constructor
  · rfl
  · simp
  · simp
  · intro s
    rw [arcsFrom_joined, arcsFrom_joined, arcsFrom_relabel, joinedArcs, joinedArcs,
      joinsAfter_rename, hjoints, ← List.map_append, List.filter_map]
    simp only [Function.comp_def, ne_eq, hseparator]

/-! ### Networks -/

theorem close_rename (hf : f.WellFormed) (r : Renaming) (w : Wildcards) (alphabet : List Label) :
    ((f.rename r).close (w.rename r) (alphabet.map r)).network =
      (f.close w alphabet).network.rename r := by
  rw [close_network (hf.relabel _), close_network hf,
    expand_relabel hf fun a => w.spellOut_rename r alphabet a.input a.output,
    strip_relabel (hf.expand w alphabet) (w.onArc_rename r)]

/-- Both ways lead to the trimmed join, which does not depend on the order in which arcs are
sorted. -/
theorem synchronize_rename_sameUpToOrder (hf : f.WellFormed) (r : Renaming) (rule : RuleMarks)
    (w : Wildcards) :
    ((f.rename r).synchronize (rule.rename r) (w.rename r)).network.SameUpToOrder
      ((f.synchronize rule w).network.rename r) := by
  have hrenamed := synchronize_network_sameUpToOrder (hf.relabel r.pair) (rule.rename r)
    (w.rename r)
  have hplain := (synchronize_network_sameUpToOrder hf rule w).mapArcs (Arc.rename r)
  rw [joined_rename, trim_relabel (hf.joined rule w)] at hrenamed
  exact hrenamed.trans hplain.symm

end Network

namespace Pass

variable {c : Settings} {f g g' : Network} {p : Pass} {e : PassError}

theorem Refuses.rename (h : p.Refuses c e) (r : Renaming) :
    p.Refuses (c.rename r) (e.rename r) := by
  have halphabet := c.checkedAlphabet_rename r
  cases h with
  | expand rejected =>
    rw [rejected] at halphabet
    exact .expand halphabet
  | close rejected =>
    rw [rejected] at halphabet
    exact .close halphabet
  | synchronize missing =>
    apply Refuses.synchronize
    rw [Settings.rename, missing]
    rfl

theorem Refuses.of_rename (h : p.Refuses (c.rename r) e) : ∃ e', p.Refuses c e' := by
  cases h with
  | expand rejected =>
    obtain ⟨e', he'⟩ := Settings.exists_error_of_rename rejected
    exact ⟨_, .expand he'⟩
  | close rejected =>
    obtain ⟨e', he'⟩ := Settings.exists_error_of_rename rejected
    exact ⟨_, .close he'⟩
  | synchronize missing => exact ⟨_, .synchronize (Option.map_eq_none_iff.1 missing)⟩

theorem Yields.eq_rename (h : p.Yields c f g) (h' : p.Yields (c.rename r) (f.rename r) g')
    (hf : f.WellFormed) (hp : p ≠ .synchronize) : g' = g.rename r := by
  cases h with
  | demote side =>
    cases h'
    exact Network.mapArcs_relabel (c.wildcards.demoteArc_rename r side) f
  | restore =>
    cases h'
    exact Network.restore_relabel hf (c.wildcards.repairArc_rename r)
      (c.wildcards.needsTwin_rename r) fun _ => rfl
  | expand checked =>
    cases h' with
    | expand checked' =>
      rw [c.checkedAlphabet_rename r, checked] at checked'
      obtain rfl := Except.ok.inj checked'
      exact Network.expand_relabel hf fun a => c.wildcards.spellOut_rename r _ a.input a.output
  | strip =>
    cases h'
    exact Network.strip_relabel hf (c.wildcards.onArc_rename r)
  | close checked =>
    cases h' with
    | close checked' =>
      rw [c.checkedAlphabet_rename r, checked] at checked'
      obtain rfl := Except.ok.inj checked'
      exact Network.close_rename hf r _ _
  | project side =>
    cases h'
    exact Network.mapArcs_relabel (c.wildcards.projectArc_rename r side) f
  | blank side =>
    cases h'
    exact Network.mapArcs_relabel (c.wildcards.blankArc_rename r side) f
  | synchronize => exact absurd rfl hp

theorem Yields.sameUpToOrder_rename (h : p.Yields c f g)
    (h' : p.Yields (c.rename r) (f.rename r) g') (hf : f.WellFormed) :
    g'.SameUpToOrder (g.rename r) := by
  by_cases hp : p = .synchronize
  · subst hp
    cases h with
    | synchronize given =>
      cases h' with
      | synchronize given' =>
        rw [Settings.rename, given] at given'
        obtain rfl := Option.some.inj given'
        exact Network.synchronize_rename_sameUpToOrder hf r _ _
  · rw [h.eq_rename h' hf hp]
    exact .refl _

/-- Renaming the labels of a well-formed network and of the settings renames the outcome of every
pass. The pass succeeds if and only if it did before, and otherwise it is refused for the same
reason. What it leaves is what it left before, renamed. Where it sorts, the order of arcs at a state
may differ. -/
theorem run_rename (hf : f.WellFormed) (r : Renaming) (p : Pass) (c : Settings) :
    ((p.run (c.rename r) (f.rename r)).result = .ok () ↔ (p.run c f).result = .ok ()) ∧
      (∀ e, (p.run c f).result = .error e →
        (p.run (c.rename r) (f.rename r)).result = .error (e.rename r)) ∧
      (p ≠ .synchronize →
        (p.run (c.rename r) (f.rename r)).network = (p.run c f).network.rename r) ∧
      (p.run (c.rename r) (f.rename r)).network.SameUpToOrder ((p.run c f).network.rename r) := by
  cases hresult : (p.run c f).result with
  | error e =>
    have hrefuses := (run_result_eq_error_iff hf).1 hresult
    rw [run_of_refuses hrefuses f, run_of_refuses (hrefuses.rename r) (f.rename r)]
    refine ⟨by simp, ?_, fun _ => rfl, .refl _⟩
    intro e' he'
    rw [Except.error.inj he']
  | ok =>
    have hnever : ∀ e, ¬ p.Refuses (c.rename r) e := by
      intro e he
      obtain ⟨e', he'⟩ := he.of_rename
      rw [(run_result_eq_error_iff hf).2 he'] at hresult
      cases hresult
    have hresult' := run_result_of_not_refuses (hf.relabel r.pair) hnever
    have hyields := yields_of_run hresult
    have hyields' := yields_of_run hresult'
    refine ⟨iff_of_true hresult' rfl, ?_, hyields.eq_rename hyields' hf,
      hyields.sameUpToOrder_rename hyields' hf⟩
    intro e he
    cases he

/-- A wildcard and a smaller symbol trade places, so that renamed arcs are sorted in another order.
An alphabet with the wildcard is refused for its new label. -/
theorem run_rename_swapped :
    let r : Renaming := ⟨Equiv.swap 5 101, (Equiv.swap 5 101).injective, by decide⟩
    let c : Settings := ⟨⟨100, 101⟩, some ⟨200, 201⟩, [7, 6]⟩
    let f : Network := ⟨#[⟨Weight.zero, [⟨101, 101, Weight.one, 1⟩, ⟨5, 201, Weight.one, 0⟩,
      ⟨9, 9, Weight.one, 1⟩]⟩, ⟨Weight.one, [⟨200, 0, Weight.one, 0⟩]⟩], some 0⟩
    let g : Network := ⟨#[⟨Weight.zero, [⟨5, 5, Weight.one, 1⟩, ⟨101, 201, Weight.one, 0⟩,
      ⟨9, 9, Weight.one, 1⟩]⟩, ⟨Weight.one, [⟨200, 0, Weight.one, 0⟩]⟩], some 0⟩
    f.WellFormed ∧ f.rename r = g ∧
      c.rename r = ⟨⟨100, 5⟩, some ⟨200, 201⟩, [7, 6]⟩ ∧
      (Pass.expand.run (c.rename r) g).result = .ok () ∧
      (Pass.expand.run (c.rename r) g).network = (Pass.expand.run c f).network.rename r ∧
      (Pass.synchronize.run (c.rename r) g).network.SameUpToOrder
        ((Pass.synchronize.run c f).network.rename r) ∧
      (Pass.close.run (Settings.rename ⟨⟨100, 101⟩, none, [5, 101]⟩ r) g).result =
        .error (.label (.notASymbol 5)) := by
  intro r c f g
  have hf : f.WellFormed := Network.isWellFormed_eq_true_iff.1 (by decide)
  have hg : f.rename r = g := by decide +kernel
  obtain ⟨hexpands, -, hexpand, -⟩ := run_rename hf r .expand c
  obtain ⟨-, -, -, hsynchronize⟩ := run_rename hf r .synchronize c
  obtain ⟨-, hrefused, -, -⟩ := run_rename hf r .close ⟨⟨100, 101⟩, none, [5, 101]⟩
  rw [hg] at hexpands hexpand hsynchronize hrefused
  exact ⟨hf, hg, by decide, hexpands.2 (by decide +kernel), hexpand (by decide), hsynchronize,
    hrefused (.label (.notASymbol 101)) (by decide +kernel)⟩

end Pass

end WildcardNet
