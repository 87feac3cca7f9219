import WildcardNet.Event
import WildcardNet.Weight.Text
/-!
# Networks

A network is a weighted transducer: states numbered from zero, each with a final weight and a list
of outgoing arcs in storage order, and possibly a start state. A state whose final weight is the
weight of no path is not final. An arc names its target by number, and nothing in the type keeps
that number in range; a network in which all numbers are in range is *well formed*. Networks are
taken to have fewer than `2 ^ 32 - 1` states, so that the numbers of states fit in 32 bits.
-/

namespace WildcardNet

abbrev StateId := Nat

structure Arc where
  input : Label
  output : Label
  weight : Weight
  target : StateId
deriving DecidableEq

structure State where
  final : Weight := Weight.zero
  arcs : List Arc := []
deriving DecidableEq

structure Network where
  states : Array State := #[]
  start : Option StateId := none
deriving DecidableEq

/-- An arc together with the state it leaves. -/
structure PlacedArc where
  source : StateId
  arc : Arc
deriving DecidableEq

namespace Arc

def isIdentity (a : Arc) : Bool := a.input == a.output

/-- The label on the given side. -/
def label (a : Arc) : Side → Label
  | .input => a.input
  | .output => a.output

/-- Equality with weights compared as numbers. -/
def sameAs (a b : Arc) : Bool :=
  a.input == b.input && a.output == b.output && a.weight.sameNumber b.weight && a.target == b.target

end Arc

namespace State

def isFinal (st : State) : Bool := !st.final.isZero

def sameAs (s t : State) : Bool :=
  s.final.sameNumber t.final && s.arcs.length == t.arcs.length &&
    (s.arcs.zip t.arcs).all fun (a, b) => a.sameAs b

end State

namespace Network

def size (f : Network) : Nat := f.states.size

def arcs? (f : Network) (s : StateId) : Option (List Arc) := f.states[s]?.map State.arcs

/-- The arcs leaving a state; none leave a state that does not exist. -/
def arcsFrom (f : Network) (s : StateId) : List Arc := (f.arcs? s).getD []

def final? (f : Network) (s : StateId) : Option Weight := f.states[s]?.map State.final

/-- All arcs, state by state and in storage order. -/
def placedArcs (f : Network) : List PlacedArc :=
  f.states.toList.zipIdx.flatMap fun (st, s) => st.arcs.map fun a => ⟨s, a⟩

def arcCount (f : Network) : Nat := (f.states.toList.flatMap State.arcs).length

/-- The number of arcs with a property. -/
def countArcs (f : Network) (p : Arc → Bool) : Nat :=
  (f.states.toList.flatMap State.arcs).countP p

def allArcs (f : Network) (p : Arc → Bool) : Bool := f.states.toList.all fun st => st.arcs.all p

def anyArc (f : Network) (p : Arc → Bool) : Bool := f.states.toList.any fun st => st.arcs.any p

/-- Replaces every arc in place. -/
def mapArcs (f : Network) (g : Arc → Arc) : Network :=
  { f with states := f.states.map fun st => { st with arcs := st.arcs.map g } }

/-- Every arc reads the same label on both sides. -/
def isAcceptor (f : Network) : Bool := f.allArcs Arc.isIdentity

/-- Equality with weights compared as numbers. -/
def sameAs (f g : Network) : Bool :=
  f.start == g.start && f.size == g.size &&
    (f.states.zip g.states).all fun (s, t) => s.sameAs t

/-- Start and arc targets are states of the network. -/
def WellFormed (f : Network) : Prop :=
  (∀ s ∈ f.start, s < f.size) ∧ ∀ st ∈ f.states, ∀ a ∈ st.arcs, a.target < f.size

def isWellFormed (f : Network) : Bool :=
  f.start.all (· < f.size) && f.allArcs fun a => a.target < f.size

/-- The sizes of the network on one line. -/
def summary (f : Network) : String :=
  let start := match f.start with
    | none => "None"
    | some s => "Some(" ++ s.repr ++ ")"
  "VectorFst \x7b start: " ++ start ++ ", state_count: " ++ f.size.repr ++ ", arc_count: " ++
    f.arcCount.repr ++ " \x7d"

theorem allArcs_eq_true_iff {f : Network} {p : Arc → Bool} :
    f.allArcs p = true ↔ ∀ st ∈ f.states, ∀ a ∈ st.arcs, p a = true := by
  simp only [allArcs, List.all_eq_true, Array.mem_toList_iff]

theorem anyArc_eq_true_iff {f : Network} {p : Arc → Bool} :
    f.anyArc p = true ↔ ∃ st ∈ f.states, ∃ a ∈ st.arcs, p a = true := by
  simp only [anyArc, List.any_eq_true, Array.mem_toList_iff]

theorem isWellFormed_eq_true_iff {f : Network} : f.isWellFormed = true ↔ f.WellFormed := by
  rw [isWellFormed, Bool.and_eq_true, allArcs_eq_true_iff, WellFormed]
  cases f.start <;> simp

@[simp] theorem size_mapArcs (f : Network) (g : Arc → Arc) : (f.mapArcs g).size = f.size := by
  simp [mapArcs, size]

@[simp] theorem start_mapArcs (f : Network) (g : Arc → Arc) : (f.mapArcs g).start = f.start := rfl

theorem arcs?_mapArcs (f : Network) (g : Arc → Arc) (s : StateId) :
    (f.mapArcs g).arcs? s = (f.arcs? s).map (List.map g) := by
  simp [mapArcs, arcs?, Option.map_map, Function.comp_def]

end Network

end WildcardNet
