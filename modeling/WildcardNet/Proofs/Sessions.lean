import WildcardNet.Proofs.Listings
import WildcardNet.Proofs.Passes
/-!
# Editing sessions

A session edits one network step by step, with a list of staged arcs beside it. A step that is
refused or breaks off leaves what it had changed by then, and the session goes on from there. Every
step keeps the network well formed, so it is well formed at all times. On a well-formed network a
pass never follows an arc to a state that does not exist, whatever its settings: it can only be
refused, for an alphabet that is none or for rule marks that are missing, and then it has not
touched the network.
-/

namespace WildcardNet

namespace Network

open Listing (bind_eq_ok_iff)

variable {f g : Network} {s : StateId} {w : Weight} {a : PlacedArc}

/-! ### Edits that can be refused -/

theorem checkState_eq_ok_iff {u : Unit} : f.checkState s = .ok u ↔ s < f.size := by
  rw [checkState]
  split <;> simp_all

theorem setStart_eq_ok_iff :
    f.setStart s = .ok g ↔ s < f.size ∧ { f with start := some s } = g := by
  simp [setStart, bind_eq_ok_iff, checkState_eq_ok_iff, pure, Except.pure]

theorem setFinal_eq_ok_iff :
    f.setFinal s w = .ok g ↔
      s < f.size ∧ { f with states := f.states.modify s fun st => { st with final := w } } = g := by
  simp [setFinal, bind_eq_ok_iff, checkState_eq_ok_iff, pure, Except.pure]

/-- Adding an arc is inserting it as the only staged one. -/
theorem addArc_eq_ok_iff : f.addArc a = .ok g ↔ f.admits a = true ∧ f.appendArcs [a] = g := by
  cases hadmits : f.admits a with
  | true => simp [addArc_eq_appendArcs hadmits]
  | false => simp [addArc_eq_error hadmits]

/-! ### Edits keep a network well formed -/

theorem arcsFrom_addStates (f : Network) (n : Nat) (s : StateId) :
    (f.addStates n).arcsFrom s = f.arcsFrom s := by
  simp only [addStates, arcsFrom, arcs?, Array.getElem?_append]
  split
  · rfl
  · next hs =>
    rw [Array.getElem?_eq_none (Nat.le_of_not_lt hs), Array.getElem?_replicate]
    split <;> rfl

theorem WellFormed.addStates (hf : f.WellFormed) (n : Nat) : (f.addStates n).WellFormed := by
  have hsize : f.size ≤ (f.addStates n).size := by
    simp [Network.addStates, size]
  apply wellFormed_of_arcsFrom
  · intro s hs
    exact Nat.lt_of_lt_of_le (hf.1 s hs) hsize
  · intro s a ha
    rw [arcsFrom_addStates] at ha
    exact Nat.lt_of_lt_of_le (hf.target_lt ha) hsize

theorem addStates_one (f : Network) : f.addStates 1 = f.addState := by
  simp [addStates, addState, Array.replicate_succ]

theorem WellFormed.setFinal (hf : f.WellFormed) (h : f.setFinal s w = .ok g) : g.WellFormed := by
  obtain ⟨-, rfl⟩ := setFinal_eq_ok_iff.1 h
  apply wellFormed_of_arcsFrom
  · simpa [size] using hf.1
  · intro t a ha
    have hsame : ({ f with states := f.states.modify s fun st => { st with final := w } } :
        Network).arcsFrom t = f.arcsFrom t := by
      simp only [arcsFrom, arcs?, Array.getElem?_modify]
      split <;> simp [Option.map_map, Function.comp_def]
    rw [hsame] at ha
    simpa [size] using hf.target_lt ha

theorem WellFormed.setStart (hf : f.WellFormed) (h : f.setStart s = .ok g) : g.WellFormed := by
  obtain ⟨hs, rfl⟩ := setStart_eq_ok_iff.1 h
  refine ⟨?_, hf.2⟩
  intro t ht
  cases ht
  exact hs

theorem WellFormed.addArc (hf : f.WellFormed) (h : f.addArc a = .ok g) : g.WellFormed := by
  obtain ⟨hadmits, rfl⟩ := addArc_eq_ok_iff.1 h
  exact hf.appendArcs (by simpa using hadmits)

/-- Insertion stops before the first arc that does not fit. -/
theorem WellFormed.insertStaged (hf : f.WellFormed) (staged : List PlacedArc) :
    (f.insertStaged staged).network.WellFormed := by
  change (f.addStaged staged).2.network.WellFormed
  induction staged generalizing f with
  | nil => exact hf
  | cons a staged ih =>
    rw [addStaged]
    cases hadd : f.addArc a with
    | ok g => exact ih (hf.addArc hadd)
    | error e => exact hf

/-- Adds a state and leads the doomed arcs there. Whether an arc is doomed may depend on where it is
stored, and so on everything that was asked before it. -/
def sinkArcsAt (f : Network) (doomed : StateId → Nat → Arc → Bool) : Network :=
  let sink (s : StateId) (k : Nat) (a : Arc) : Arc :=
    if doomed s k a then { a with target := f.size } else a
  addState { f with
    states := f.states.mapIdx fun s st => { st with arcs := st.arcs.mapIdx (sink s) } }

/-- A choice that looks at nothing but the arc is that of pruning. -/
theorem sinkArcsAt_eq_sinkArcs (f : Network) (doomed : Arc → Bool) :
    f.sinkArcsAt (fun _ _ a => doomed a) = f.sinkArcs doomed := by
  simp only [sinkArcsAt, sinkArcs, mapArcs]
  congr 2
  apply Array.ext_getElem?
  intro s
  have hplain : ∀ st : State, st.arcs.mapIdx (fun _ a =>
      if doomed a then { a with target := f.size } else a) =
        st.arcs.map fun a => if doomed a then { a with target := f.size } else a := by
    intro st
    apply List.ext_getElem?
    simp
  cases h : f.states[s]? <;> simp [h, hplain]

theorem WellFormed.sinkArcsAt (hf : f.WellFormed) (doomed : StateId → Nat → Arc → Bool) :
    (f.sinkArcsAt doomed).WellFormed := by
  have hsize : (f.sinkArcsAt doomed).size = f.size + 1 := by
    simp [Network.sinkArcsAt, size, addState]
  refine ⟨?_, ?_⟩
  · intro s hs
    rw [hsize]
    exact Nat.lt_succ_of_lt (hf.1 s hs)
  · intro st hst b hb
    rw [hsize]
    rcases Array.mem_push.1 hst with hst | rfl
    · obtain ⟨s, hs, rfl⟩ := Array.mem_mapIdx.1 hst
      obtain ⟨k, hk, rfl⟩ := List.mem_mapIdx.1 hb
      have hlt := hf.2 _ (Array.getElem_mem hs) _ (List.getElem_mem hk)
      dsimp only
      split
      · exact Nat.lt_succ_self f.size
      · exact Nat.lt_succ_of_lt hlt
    · simp at hb

/-- The network after an edit that may have been refused. -/
def orKeep {ε : Type} (f : Network) : Except ε Network → Network
  | .ok g => g
  | .error _ => f

theorem WellFormed.orKeep {ε : Type} (hf : f.WellFormed) {edited : Except ε Network}
    (h : ∀ g, edited = .ok g → g.WellFormed) : (f.orKeep edited).WellFormed := by
  cases edited with
  | ok g => exact h g rfl
  | error e => exact hf

end Network

/-! ### Passes that are refused -/

namespace Pass

variable {c : Settings} {f : Network} {p : Pass} {e : PassError}

/-- The settings do not have what the pass needs. -/
inductive Refuses (c : Settings) : Pass → PassError → Prop
  | expand {e : LabelError} (rejected : c.checkedAlphabet = .error e) : Refuses c .expand (.label e)
  | close {e : LabelError} (rejected : c.checkedAlphabet = .error e) : Refuses c .close (.label e)
  | synchronize (missing : c.rule = none) : Refuses c .synchronize .ruleMissing

/-- A pass that is refused does not touch the network. -/
theorem run_of_refuses (h : p.Refuses c e) (f : Network) : p.run c f = ⟨f, [], .error e⟩ := by
  cases h with
  | expand rejected => simp [run, runOverAlphabet, rejected]
  | close rejected => simp [run, runOverAlphabet, rejected]
  | synchronize missing => simp [run, missing]

theorem runOverAlphabet_result {pass : List Label → Outcome NetworkError (List Label)}
    {alphabet symbols : List Label} (hchecked : c.checkedAlphabet = .ok alphabet)
    (hpass : (pass alphabet).result = .ok symbols) :
    (p.runOverAlphabet c f pass).result = .ok () := by
  simp [runOverAlphabet, hchecked, Outcome.after, Outcome.andThen, Outcome.mapError, hpass,
    Except.mapError]

/-- On a well-formed network a pass that is not refused succeeds. -/
theorem run_result_of_not_refuses (hf : f.WellFormed) (h : ∀ e, ¬ p.Refuses c e) :
    (p.run c f).result = .ok () := by
  cases p with
  | demote side => rfl
  | restore => simp [run, Outcome.mapError, Network.restore_result hf, Except.mapError]
  | expand =>
    cases hchecked : c.checkedAlphabet with
    | error e => exact absurd (.expand hchecked) (h (.label e))
    | ok alphabet => exact runOverAlphabet_result hchecked (Network.expand_result hf)
  | strip => simp [run, Outcome.mapError, Network.strip_result hf, Except.mapError]
  | close =>
    cases hchecked : c.checkedAlphabet with
    | error e => exact absurd (.close hchecked) (h (.label e))
    | ok alphabet => exact runOverAlphabet_result hchecked (Network.close_result hf _ _)
  | project side => rfl
  | blank side => rfl
  | synchronize =>
    cases hrule : c.rule with
    | none => exact absurd (.synchronize hrule) (h .ruleMissing)
    | some rule =>
      simp [run, hrule, Outcome.mapError, Network.synchronize_result hf, Except.mapError]

theorem run_result_eq_error_iff (hf : f.WellFormed) :
    (p.run c f).result = .error e ↔ p.Refuses c e := by
  constructor
  · intro herror
    by_contra hnot
    by_cases hrefused : ∃ e', p.Refuses c e'
    · obtain ⟨e', he'⟩ := hrefused
      rw [run_of_refuses he'] at herror
      cases herror
      exact hnot he'
    · rw [run_result_of_not_refuses hf (not_exists.1 hrefused)] at herror
      cases herror
  · intro h
    rw [run_of_refuses h]

theorem wellFormed_run (hf : f.WellFormed) (p : Pass) (c : Settings) :
    (p.run c f).network.WellFormed := by
  cases hresult : (p.run c f).result with
  | ok u => exact (yields_of_run hresult).wellFormed hf
  | error e =>
    rw [run_of_refuses ((run_result_eq_error_iff hf).1 hresult)]
    exact hf

end Pass

/-! ### Sessions -/

/-- A step of a session. -/
inductive Edit
  | addState
  | addStates (count : Nat)
  | setStart (s : StateId)
  | setFinal (s : StateId) (w : Weight)
  | addArc (a : PlacedArc)
  /-- Puts an arc behind those that are staged, whether or not it fits the network. -/
  | stage (a : PlacedArc)
  | insertStaged
  | sortArcs
  | trim
  | pruneArcs (doomed : StateId → Nat → Arc → Bool)
  | clear
  | read (text : ByteArray)
  | run (p : Pass) (c : Settings)

/-- A network that is being edited, and the arcs that are staged for it. -/
structure Session where
  network : Network := {}
  staged : List PlacedArc := []

namespace Session

/-- The session after one more edit, be it refused or not. -/
def step (x : Session) : Edit → Session
  | .addState => { x with network := x.network.addState }
  | .addStates n => { x with network := x.network.addStates n }
  | .setStart s => { x with network := x.network.orKeep (x.network.setStart s) }
  | .setFinal s w => { x with network := x.network.orKeep (x.network.setFinal s w) }
  | .addArc a => { x with network := x.network.orKeep (x.network.addArc a) }
  | .stage a => { x with staged := x.staged ++ [a] }
  | .insertStaged => { network := (x.network.insertStaged x.staged).network }
  | .sortArcs => { x with network := x.network.sortArcs }
  | .trim => { x with network := x.network.trim.network }
  | .pruneArcs doomed => { x with network := (x.network.sinkArcsAt doomed).trim.network }
  | .clear => { x with network := {} }
  | .read text => { x with network := x.network.orKeep (Listing.read text) }
  | .run p c => { x with network := (p.run c x.network).network }

/-- The session after all the edits. -/
def after (edits : List Edit) : Session := edits.foldl step {}

theorem wellFormed_step {x : Session} (hx : x.network.WellFormed) (e : Edit) :
    (x.step e).network.WellFormed := by
  cases e with
  | addState =>
    rw [step, ← Network.addStates_one]
    exact hx.addStates 1
  | addStates n => exact hx.addStates n
  | setStart s => exact hx.orKeep fun _ => hx.setStart
  | setFinal s w => exact hx.orKeep fun _ => hx.setFinal
  | addArc a => exact hx.orKeep fun _ => hx.addArc
  | stage a => exact hx
  | insertStaged => exact hx.insertStaged x.staged
  | sortArcs => exact hx.sortArcs
  | trim => exact hx.trim
  | pruneArcs doomed => exact (hx.sinkArcsAt doomed).trim
  | clear => exact Network.wellFormed_empty
  | read text => exact hx.orKeep fun _ => Listing.wellFormed_of_read
  | run p c => exact Pass.wellFormed_run hx p c

/-- Pruning as a step, with a choice that looks at nothing but the arc, is pruning. -/
theorem network_step_pruneArcs (x : Session) (doomed : Arc → Bool) :
    (x.step (.pruneArcs fun _ _ a => doomed a)).network = (x.network.pruneArcs doomed).network := by
  rw [step, Network.sinkArcsAt_eq_sinkArcs, Network.pruneArcs, Outcome.andThen]
  cases (x.network.sinkArcs doomed).trim.result <;> rfl

theorem wellFormed_foldl_step (edits : List Edit) {x : Session} (hx : x.network.WellFormed) :
    (edits.foldl step x).network.WellFormed := by
  induction edits generalizing x with
  | nil => exact hx
  | cons e edits ih => exact ih (wellFormed_step hx e)

/-- The network of a session is well formed at all times. On a well-formed network, a pass with any
settings at all succeeds unless it lacks an alphabet or rule marks that it needs, and then it leaves
the network as it was. -/
theorem wellFormed_and_passes_total :
    (∀ edits : List Edit, (after edits).network.WellFormed) ∧
      ∀ f : Network, f.WellFormed → ∀ (p : Pass) (c : Settings),
        (∀ e, (p.run c f).result = .error e ↔ p.Refuses c e) ∧
          (∀ e, (p.run c f).result = .error e → (p.run c f).network = f) ∧
            (p.run c f).network.WellFormed := by
  refine ⟨fun edits => wellFormed_foldl_step edits Network.wellFormed_empty, ?_⟩
  intro f hf p c
  refine ⟨fun e => Pass.run_result_eq_error_iff hf, ?_, Pass.wellFormed_run hf p c⟩
  intro e he
  rw [Pass.run_of_refuses ((Pass.run_result_eq_error_iff hf).1 he)]

/-- A session in which one staged arc fits and the next does not, and a start is refused. The labels
of the settings play several roles at once, so that a symbol of the alphabet is a wildcard. -/
theorem wellFormed_and_passes_total_half_staged :
    let edits : List Edit := [.addStates 2, .setStart 0, .setFinal 1 Weight.one,
      .stage ⟨0, ⟨7, 7, Weight.one, 1⟩⟩, .stage ⟨0, ⟨5, 5, Weight.one, 2⟩⟩, .insertStaged,
      .setStart 9]
    let f : Network := ⟨#[⟨Weight.zero, [⟨7, 7, Weight.one, 1⟩]⟩, ⟨Weight.one, []⟩], some 0⟩
    let c : Settings := ⟨⟨7, 7⟩, none, [5, 7]⟩
    (after edits).network = f ∧ f.WellFormed ∧
      (Pass.close.run c f).result = .error (.label (.notASymbol 7)) ∧
      (Pass.close.run c f).network = f ∧
      (Pass.synchronize.run c f).result = .error .ruleMissing ∧
      (Pass.synchronize.run c f).network = f ∧
      ∀ e, (Pass.restore.run c f).result ≠ .error e := by
  intro edits f c
  have hafter : (after edits).network = f := by decide +kernel
  obtain ⟨hsession, hpasses⟩ := wellFormed_and_passes_total
  have hf : f.WellFormed := hafter ▸ hsession edits
  have hclose := ((hpasses f hf .close c).1 (.label (.notASymbol 7))).2 (.close rfl)
  have hsync := ((hpasses f hf .synchronize c).1 .ruleMissing).2 (.synchronize rfl)
  refine ⟨hafter, hf, hclose, (hpasses f hf .close c).2.1 _ hclose, hsync,
    (hpasses f hf .synchronize c).2.1 _ hsync, ?_⟩
  intro e he
  cases ((hpasses f hf .restore c).1 e).1 he

end Session

end WildcardNet
