import Mathlib.Data.Fintype.Basic
import Mathlib.Data.Fintype.EquivFin
import Mathlib.Data.List.FinRange
import Mathlib.Data.List.Forall2
import WildcardNet.Proofs.Edits
/-!
# Successful runs

A string is accepted when the arcs of a successful run read it one by one. All states on a
successful run are useful. To count the ways in which a string is read, a run is given by the
positions of its arcs: an arc that is stored twice can be taken in two ways.
-/

namespace WildcardNet.Network

variable {f : Network} {s t : StateId} {arcs : List Arc}

/-- The arcs are those of a run from the start to a final state. -/
def Succeeds (f : Network) (arcs : List Arc) : Prop :=
  ∃ start ∈ f.start, ∃ t, f.Run start arcs t ∧ f.IsFinal t

theorem acceptsFrom_nil_iff {reads : Arc → Label × Label → Prop} :
    f.AcceptsFrom reads s [] ↔ f.IsFinal s := by
  constructor
  · rintro ⟨final⟩
    exact final
  · exact .nil

theorem acceptsFrom_cons_iff {reads : Arc → Label × Label → Prop} {pair : Label × Label}
    {string : List (Label × Label)} :
    f.AcceptsFrom reads s (pair :: string) ↔
      ∃ a ∈ f.arcsFrom s, reads a pair ∧ f.AcceptsFrom reads a.target string := by
  constructor
  · intro h
    cases h with
    | cons leaves read rest => exact ⟨_, leaves, read, rest⟩
  · rintro ⟨a, leaves, read, rest⟩
    exact .cons leaves read rest

theorem acceptsFrom_iff {reads : Arc → Label × Label → Prop} {string : List (Label × Label)} :
    f.AcceptsFrom reads s string ↔
      ∃ arcs t, f.Run s arcs t ∧ f.IsFinal t ∧ List.Forall₂ reads arcs string := by
  constructor
  · intro h
    induction h with
    | nil final => exact ⟨[], _, .nil _, final, .nil⟩
    | cons leaves read _ ih =>
      obtain ⟨arcs, t, hrun, hfinal, hread⟩ := ih
      exact ⟨_ :: arcs, t, .cons leaves hrun, hfinal, .cons read hread⟩
  · rintro ⟨arcs, t, hrun, hfinal, hread⟩
    induction hread generalizing s with
    | nil =>
      cases hrun
      exact .nil hfinal
    | cons read _ ih =>
      cases hrun with
      | cons leaves rest => exact .cons leaves read (ih rest)

theorem accepts_iff {reads : Arc → Label × Label → Prop} {string : List (Label × Label)} :
    f.Accepts reads string ↔ ∃ arcs, f.Succeeds arcs ∧ List.Forall₂ reads arcs string := by
  simp only [Accepts, Succeeds, acceptsFrom_iff]
  constructor
  · rintro ⟨start, hstart, arcs, t, hrun, hfinal, hread⟩
    exact ⟨arcs, ⟨start, hstart, t, hrun, hfinal⟩, hread⟩
  · rintro ⟨arcs, ⟨start, hstart, t, hrun, hfinal⟩, hread⟩
    exact ⟨start, hstart, arcs, t, hrun, hfinal, hread⟩

theorem AcceptsFrom.of_steps {g : Network} {reads reads' : Arc → Label × Label → Prop}
    {string : List (Label × Label)} (hfinal : ∀ s, f.IsFinal s → g.IsFinal s)
    (hstep : ∀ pair ∈ string, ∀ s, ∀ a ∈ f.arcsFrom s, reads a pair →
      ∃ b ∈ g.arcsFrom s, reads' b pair ∧ b.target = a.target)
    (h : f.AcceptsFrom reads s string) : g.AcceptsFrom reads' s string := by
  induction h with
  | nil final => exact .nil (hfinal _ final)
  | cons leaves read _ ih =>
    obtain ⟨hpair, hstring⟩ := List.forall_mem_cons.1 hstep
    obtain ⟨b, hb, hread, htarget⟩ := hpair _ _ leaves read
    have hrest := ih hstring
    rw [← htarget] at hrest
    exact .cons hb hread hrest

/-- Every pair of an accepted string is read by some arc. -/
theorem Accepts.exists_reader {reads : Arc → Label × Label → Prop} {string : List (Label × Label)}
    (h : f.Accepts reads string) : ∀ pair ∈ string, ∃ s, ∃ a ∈ f.arcsFrom s, reads a pair := by
  obtain ⟨start, -, h⟩ := h
  induction h with
  | nil => simp
  | cons leaves read _ ih => exact List.forall_mem_cons.2 ⟨⟨_, _, leaves, read⟩, ih⟩

/-- Networks with the same start and final states accept the same strings if they can read every
pair of the string between the same states. -/
theorem accepts_congr {g : Network} {reads reads' : Arc → Label × Label → Prop}
    {string : List (Label × Label)} (hstart : g.start = f.start)
    (hfinal : ∀ s, g.IsFinal s ↔ f.IsFinal s)
    (hstep : ∀ pair ∈ string, ∀ s t, (∃ b ∈ g.arcsFrom s, reads' b pair ∧ b.target = t) ↔
      ∃ a ∈ f.arcsFrom s, reads a pair ∧ a.target = t) :
    g.Accepts reads' string ↔ f.Accepts reads string := by
  rw [Accepts, Accepts, hstart]
  refine exists_congr fun start => and_congr_right fun _ => ⟨?_, ?_⟩
  · refine AcceptsFrom.of_steps (fun s => (hfinal s).1) fun pair hpair s b hb hread => ?_
    exact (hstep pair hpair s b.target).1 ⟨b, hb, hread, rfl⟩
  · refine AcceptsFrom.of_steps (fun s => (hfinal s).2) fun pair hpair s a ha hread => ?_
    exact (hstep pair hpair s a.target).2 ⟨a, ha, hread, rfl⟩

/-- A run that leads on to a final state from a state that can be reached uses useful states. -/
theorem Run.useful {start : StateId} (hstart : start ∈ f.start) (hrun : f.Run s arcs t)
    (hreach : f.Reaches start s) (hfinal : f.IsFinal t) :
    f.Useful s ∧ ∀ a ∈ arcs, f.Useful a.target := by
  induction hrun with
  | nil => exact ⟨⟨⟨start, hstart, hreach⟩, _, Reaches.refl f _, hfinal⟩, by simp⟩
  | @cons s t a arcs leaves rest ih =>
    have hone : f.Reaches s a.target := ⟨[a], .cons leaves (.nil _)⟩
    obtain ⟨htarget, hrest⟩ := ih (hreach.trans hone) hfinal
    refine ⟨⟨⟨start, hstart, hreach⟩, t, ⟨_, .cons leaves rest⟩, hfinal⟩, ?_⟩
    simpa using ⟨htarget, hrest⟩

/-! ### Runs by position -/

variable {g : Network} {reads reads' : Arc → Label × Label → Prop} {pair : Label × Label}
  {string : List (Label × Label)}

/-- A run from a state to a final one that reads a string, given by the position of the arc that is
taken at every step. -/
inductive ReadingRun (f : Network) (reads : Arc → Label × Label → Prop) :
    StateId → List (Label × Label) → Type
  | stop {s : StateId} (weight : Weight) (stored : f.final? s = some weight)
      (final : weight.isZero = false) : ReadingRun f reads s []
  | step {s : StateId} {pair : Label × Label} {string : List (Label × Label)}
      (position : Fin (f.arcsFrom s).length) (read : reads ((f.arcsFrom s).get position) pair)
      (rest : ReadingRun f reads ((f.arcsFrom s).get position).target string) :
      ReadingRun f reads s (pair :: string)

namespace ReadingRun

/-- The states that the run goes through. -/
def states : ∀ {s : StateId} {string : List (Label × Label)}, ReadingRun f reads s string →
    List StateId
  | s, _, .stop .. => [s]
  | s, _, .step _ _ rest => s :: rest.states

/-- The weights of the arcs that the run takes. -/
def weights : ∀ {s : StateId} {string : List (Label × Label)}, ReadingRun f reads s string →
    List Weight
  | _, _, .stop .. => []
  | s, _, .step position _ rest => ((f.arcsFrom s).get position).weight :: rest.weights

/-- The final weight of the state that the run ends in. -/
def finalWeight : ∀ {s : StateId} {string : List (Label × Label)}, ReadingRun f reads s string →
    Weight
  | _, _, .stop weight .. => weight
  | _, _, .step _ _ rest => rest.finalWeight

/-- The two runs go through the same states, with the same weights. -/
def SameTrace (r : ReadingRun g reads' s string) (r' : ReadingRun f reads s string) : Prop :=
  r'.states = r.states ∧ r'.weights = r.weights ∧ r'.finalWeight = r.finalWeight

/-- The first run goes through the states of the second one under their numbers, with the same
weights. -/
def SameTraceUpTo (number : StateId → StateId) (r : ReadingRun g reads' t string)
    (r' : ReadingRun f reads s string) : Prop :=
  r.states = r'.states.map number ∧ r'.weights = r.weights ∧ r'.finalWeight = r.finalWeight

end ReadingRun

/-- The positions of the arcs with the given weight and target that read a pair. -/
abbrev StepTo (f : Network) (reads : Arc → Label × Label → Prop) (s : StateId)
    (pair : Label × Label) (landing : Weight × StateId) : Type :=
  { position : Fin (f.arcsFrom s).length //
    reads ((f.arcsFrom s).get position) pair ∧
      (((f.arcsFrom s).get position).weight, ((f.arcsFrom s).get position).target) = landing }

namespace ReadingRun

def stopEquiv (f : Network) (reads : Arc → Label × Label → Prop) (s : StateId) :
    ReadingRun f reads s [] ≃ { weight // f.final? s = some weight ∧ weight.isZero = false } where
  toFun
    | .stop weight stored final => ⟨weight, stored, final⟩
  invFun x := .stop x.1 x.2.1 x.2.2
  left_inv r := by cases r; rfl
  right_inv _ := rfl

/-- A run that reads a pair and then a string is a step with some weight to some state, and a run
from there. -/
def stepEquiv (f : Network) (reads : Arc → Label × Label → Prop) (s : StateId)
    (pair : Label × Label) (string : List (Label × Label)) :
    ReadingRun f reads s (pair :: string) ≃
      (Σ landing : Weight × StateId,
        StepTo f reads s pair landing × ReadingRun f reads landing.2 string) where
  toFun
    | .step position read rest => ⟨_, ⟨position, read, rfl⟩, rest⟩
  invFun
    | ⟨_, ⟨position, read, rfl⟩, rest⟩ => .step position read rest
  left_inv r := by cases r; rfl
  right_inv := by rintro ⟨_, ⟨position, read, rfl⟩, rest⟩; rfl

@[simp] theorem states_stepEquiv_symm (landing : Weight × StateId)
    (i : StepTo f reads s pair landing) (rest : ReadingRun f reads landing.2 string) :
    ((stepEquiv f reads s pair string).symm ⟨landing, i, rest⟩).states = s :: rest.states := by
  obtain ⟨position, read, rfl⟩ := i
  rfl

@[simp] theorem weights_stepEquiv_symm (landing : Weight × StateId)
    (i : StepTo f reads s pair landing) (rest : ReadingRun f reads landing.2 string) :
    ((stepEquiv f reads s pair string).symm ⟨landing, i, rest⟩).weights =
      landing.1 :: rest.weights := by
  obtain ⟨position, read, rfl⟩ := i
  rfl

@[simp] theorem finalWeight_stepEquiv_symm (landing : Weight × StateId)
    (i : StepTo f reads s pair landing) (rest : ReadingRun f reads landing.2 string) :
    ((stepEquiv f reads s pair string).symm ⟨landing, i, rest⟩).finalWeight = rest.finalWeight := by
  obtain ⟨position, read, rfl⟩ := i
  rfl

/-! ### Runs under other state numbers -/

section Named

variable {ι : Type} {name : ι → StateId}

theorem stepEquiv_symm_named_injective (hinj : Function.Injective name) :
    Function.Injective fun x : (Σ landing : Weight × ι,
        StepTo f reads s pair (landing.1, name landing.2) ×
          ReadingRun f reads (name landing.2) string) =>
      (stepEquiv f reads s pair string).symm ⟨(x.1.1, name x.1.2), x.2⟩ := by
  intro ⟨⟨weight, i⟩, x⟩ ⟨⟨weight', i'⟩, x'⟩ heq
  obtain ⟨hlanding, hx⟩ := Sigma.mk.inj ((stepEquiv f reads s pair string).symm.injective heq)
  obtain ⟨rfl, hname⟩ := Prod.mk.inj hlanding
  obtain rfl := hinj hname
  obtain rfl := eq_of_heq hx
  rfl

theorem stepEquiv_symm_named_surjective
    (hnamed : ∀ a ∈ f.arcsFrom s, ReadingRun f reads a.target string → ∃ i, name i = a.target) :
    Function.Surjective fun x : (Σ landing : Weight × ι,
        StepTo f reads s pair (landing.1, name landing.2) ×
          ReadingRun f reads (name landing.2) string) =>
      (stepEquiv f reads s pair string).symm ⟨(x.1.1, name x.1.2), x.2⟩ := by
  intro r
  obtain ⟨⟨⟨weight, t⟩, step, tail⟩, rfl⟩ := (stepEquiv f reads s pair string).symm.surjective r
  have htarget : ((f.arcsFrom s).get step.1).target = t := congrArg Prod.snd step.2.2
  obtain ⟨i, rfl⟩ : ∃ i, name i = t := by
    rw [← htarget]
    exact hnamed _ (List.get_mem _ step.1) (htarget.symm ▸ tail)
  exact ⟨⟨(weight, i), step, tail⟩, rfl⟩

/-- Where the states that a run can go on from have names, a step is a step to a named state. -/
noncomputable def namedStepEquiv (hinj : Function.Injective name)
    (hnamed : ∀ a ∈ f.arcsFrom s, ReadingRun f reads a.target string → ∃ i, name i = a.target)
    (pair : Label × Label) :
    (Σ landing : Weight × ι, StepTo f reads s pair (landing.1, name landing.2) ×
      ReadingRun f reads (name landing.2) string) ≃ ReadingRun f reads s (pair :: string) :=
  Equiv.ofBijective _
    ⟨stepEquiv_symm_named_injective hinj, stepEquiv_symm_named_surjective hnamed⟩

variable (hinj : Function.Injective name)
  (hnamed : ∀ a ∈ f.arcsFrom s, ReadingRun f reads a.target string → ∃ i, name i = a.target)
  (landing : Weight × ι) (i : StepTo f reads s pair (landing.1, name landing.2))
  (rest : ReadingRun f reads (name landing.2) string)

theorem states_namedStepEquiv :
    (namedStepEquiv hinj hnamed pair ⟨landing, i, rest⟩).states = s :: rest.states :=
  states_stepEquiv_symm _ i rest

theorem weights_namedStepEquiv :
    (namedStepEquiv hinj hnamed pair ⟨landing, i, rest⟩).weights = landing.1 :: rest.weights :=
  weights_stepEquiv_symm _ i rest

theorem finalWeight_namedStepEquiv :
    (namedStepEquiv hinj hnamed pair ⟨landing, i, rest⟩).finalWeight = rest.finalWeight :=
  finalWeight_stepEquiv_symm _ i rest

end Named

/-- Two networks have as many runs if the states of one that its runs can go through are states of
the other under their numbers, with the same final weights and as many steps between them. -/
theorem exists_equiv_renumbered (number : StateId → StateId) (live : StateId → Prop)
    (hinj : Set.InjOn number {s | live s})
    (hfinal : ∀ s, live s → g.final? (number s) = f.final? s)
    (hlive : ∀ s, live s → ∀ a ∈ f.arcsFrom s, ∀ string,
      ReadingRun f reads a.target string → live a.target)
    (hland : ∀ s, live s → ∀ b ∈ g.arcsFrom (number s), ∃ t, live t ∧ number t = b.target)
    (hstep : ∀ s t, live s → live t → ∀ pair weight,
      Nonempty (StepTo g reads' (number s) pair (weight, number t) ≃
        StepTo f reads s pair (weight, t)))
    (string : List (Label × Label)) (s : StateId) (hs : live s) :
    ∃ e : ReadingRun g reads' (number s) string ≃ ReadingRun f reads s string,
      ∀ r, SameTraceUpTo number r (e r) := by
  induction string generalizing s with
  | nil =>
    let middle : { weight // g.final? (number s) = some weight ∧ weight.isZero = false } ≃
        { weight // f.final? s = some weight ∧ weight.isZero = false } :=
      Equiv.subtypeEquivRight fun weight => by rw [hfinal s hs]
    refine ⟨(stopEquiv g reads' (number s)).trans (middle.trans (stopEquiv f reads s).symm), ?_⟩
    intro r
    cases r
    exact ⟨rfl, rfl, rfl⟩
  | cons pair string ih =>
    choose rest hrest using ih
    -- The live states name those that the runs of both networks can go on from.
    have hnumbered : ∀ b ∈ g.arcsFrom (number s), ReadingRun g reads' b.target string →
        ∃ t : { t // live t }, number t = b.target := by
      intro b hb _
      obtain ⟨t, ht, hnumber⟩ := hland s hs b hb
      exact ⟨⟨t, ht⟩, hnumber⟩
    have hkept : ∀ a ∈ f.arcsFrom s, ReadingRun f reads a.target string →
        ∃ t : { t // live t }, t.1 = a.target :=
      fun a ha tail => ⟨⟨a.target, hlive s hs a ha string tail⟩, rfl⟩
    have hnumber : Function.Injective fun t : { t // live t } => number t :=
      fun t t' heq => Subtype.ext (hinj t.2 t'.2 heq)
    let stepsG := namedStepEquiv hnumber hnumbered pair
    let stepsF := namedStepEquiv Subtype.val_injective hkept pair
    let middle := Equiv.sigmaCongrRight fun landing : Weight × { t // live t } =>
      (Classical.choice (hstep s landing.2 hs landing.2.2 pair landing.1)).prodCongr
        (rest landing.2 landing.2.2)
    refine ⟨stepsG.symm.trans (middle.trans stepsF), ?_⟩
    intro r
    obtain ⟨⟨landing, i, tail⟩, rfl⟩ := stepsG.surjective r
    obtain ⟨hstates, hweights, hfinal'⟩ := hrest landing.2 landing.2.2 tail
    rw [Equiv.trans_apply, Equiv.symm_apply_apply]
    simp only [SameTraceUpTo, Equiv.trans_apply, stepsG, stepsF, middle,
      Equiv.sigmaCongrRight_apply, Equiv.prodCongr_apply, Prod.map_apply, states_namedStepEquiv,
      weights_namedStepEquiv, finalWeight_namedStepEquiv, hstates, hweights, hfinal', and_self,
      List.map_cons]

/-- Two networks with the same final weights and as many steps from state to state have as many
runs. -/
theorem exists_equiv (hfinal : ∀ s, g.final? s = f.final? s)
    (hstep : ∀ s pair landing,
      Nonempty (StepTo g reads' s pair landing ≃ StepTo f reads s pair landing))
    (string : List (Label × Label)) (s : StateId) :
    ∃ e : ReadingRun g reads' s string ≃ ReadingRun f reads s string, ∀ r, SameTrace r (e r) := by
  obtain ⟨e, he⟩ := exists_equiv_renumbered id (fun _ => True) (Set.injOn_id _)
    (fun s _ => hfinal s) (fun _ _ _ _ _ _ => trivial)
    (fun _ _ b _ => ⟨b.target, trivial, rfl⟩)
    (fun s t _ _ pair weight => hstep s pair (weight, t)) string s trivial
  refine ⟨e, fun r => ?_⟩
  obtain ⟨hstates, hweights, hfinal'⟩ := he r
  rw [List.map_id] at hstates
  exact ⟨hstates.symm, hweights, hfinal'⟩

end ReadingRun

/-- A successful run that reads a string. -/
structure SuccessfulReading (f : Network) (reads : Arc → Label × Label → Prop)
    (string : List (Label × Label)) where
  start : StateId
  isStart : f.start = some start
  run : ReadingRun f reads start string

theorem exists_successfulReading_equiv (hstart : g.start = f.start)
    (hfinal : ∀ s, g.final? s = f.final? s)
    (hstep : ∀ s pair landing,
      Nonempty (StepTo g reads' s pair landing ≃ StepTo f reads s pair landing))
    (string : List (Label × Label)) :
    ∃ e : SuccessfulReading g reads' string ≃ SuccessfulReading f reads string,
      ∀ r, (e r).run.states = r.run.states ∧ (e r).run.weights = r.run.weights ∧
        (e r).run.finalWeight = r.run.finalWeight := by
  choose runs hruns using ReadingRun.exists_equiv hfinal hstep string
  refine ⟨⟨fun r => ⟨r.start, hstart ▸ r.isStart, runs r.start r.run⟩,
    fun r => ⟨r.start, hstart ▸ r.isStart, (runs r.start).symm r.run⟩, ?_, ?_⟩, ?_⟩
  · intro r
    simp
  · intro r
    simp
  · intro r
    exact hruns r.start r.run

/-- The positions of a list at which a property holds are as many as the items with it. -/
theorem card_positions {α : Type} (items : List α) (p : α → Prop) [DecidablePred p] :
    Fintype.card { i : Fin items.length // p (items.get i) } = items.countP fun a => p a := by
  rw [Fintype.card_subtype, ← List.toFinset_finRange,
    (List.nodup_finRange items.length).card_eq_countP]
  conv_rhs => rw [← List.map_get_finRange items]
  rw [List.countP_map]
  rfl

/-- States with equally many arcs of a weight and target that read a pair have equally many steps
of this kind. -/
theorem nonempty_stepTo_equiv [∀ a p, Decidable (reads a p)] [∀ a p, Decidable (reads' a p)]
    {landing landing' : Weight × StateId}
    (h : ((g.arcsFrom t).countP fun a => reads' a pair ∧ (a.weight, a.target) = landing') =
      (f.arcsFrom s).countP fun a => reads a pair ∧ (a.weight, a.target) = landing) :
    Nonempty (StepTo g reads' t pair landing' ≃ StepTo f reads s pair landing) := by
  rw [← Fintype.card_eq, card_positions (g.arcsFrom t) fun a =>
      reads' a pair ∧ (a.weight, a.target) = landing',
    card_positions (f.arcsFrom s) fun a => reads a pair ∧ (a.weight, a.target) = landing, h]

theorem exists_read_iff {p : Arc → Prop} [DecidablePred p] :
    (∃ a ∈ arcs, p a ∧ a.target = t) ↔
      ∃ weight : Weight, 0 < arcs.countP fun a => p a ∧ (a.weight, a.target) = (weight, t) := by
  simp only [List.countP_pos_iff, decide_eq_true_iff, Prod.mk.injEq]
  constructor
  · rintro ⟨a, ha, hp, htarget⟩
    exact ⟨a.weight, a, ha, hp, rfl, htarget⟩
  · rintro ⟨weight, a, ha, hp, -, htarget⟩
    exact ⟨a, ha, hp, htarget⟩

end WildcardNet.Network
