import WildcardNet.Network.Basic
/-!
# Building networks

States and arcs are added one by one. An operation that names a state which does not exist is
refused and changes nothing. Memory for what is added is taken to be there; whoever wants to know
beforehand can ask for room.
-/

namespace WildcardNet

/-- Why an operation on a network is refused or breaks off. -/
inductive NetworkError
  /-- A state is named that the network of the given size does not have. -/
  | noSuchState (state states : Nat)
  /-- There is no room for so many more items. -/
  | noRoom (requested : Nat)
  /-- The network has an arc to a state that it does not have. -/
  | danglingArc
deriving DecidableEq, Repr

def NetworkError.message : NetworkError → String
  | .noSuchState state states =>
    "state " ++ state.repr ++ " out of range: network has " ++ states.repr ++ " states"
  | .noRoom requested =>
    "failed to reserve room for " ++ requested.repr ++ " staged arcs"
  | .danglingArc => "an arc leads to a state that the network does not have"

/-- Room can be made as long as all items together stay within the addressable size. -/
def reserve (itemSize held additional : Nat) : Except NetworkError Unit :=
  if itemSize * (held + additional) < Nat.pow 2 63 then .ok () else .error (.noRoom additional)

namespace Network

/-- A new state at the end, not final and without arcs. -/
def addState (f : Network) : Network := { f with states := f.states.push {} }

def addStates (f : Network) (n : Nat) : Network :=
  { f with states := f.states ++ Array.replicate n {} }

def checkState (f : Network) (s : StateId) : Except NetworkError Unit :=
  if s < f.size then .ok () else .error (.noSuchState s f.size)

def setStart (f : Network) (s : StateId) : Except NetworkError Network := do
  f.checkState s
  return { f with start := some s }

def setFinal (f : Network) (s : StateId) (w : Weight) : Except NetworkError Network := do
  f.checkState s
  return { f with states := f.states.modify s fun st => { st with final := w } }

/-- Appends an arc to those of its source. -/
def addArc (f : Network) (a : PlacedArc) : Except NetworkError Network := do
  f.checkState a.source
  f.checkState a.arc.target
  return { f with
    states := f.states.modify a.source fun st => { st with arcs := st.arcs ++ [a.arc] } }

/-- Edits one arc in place without looking at its new target. -/
def editArc? (f : Network) (s : StateId) (position : Nat) (edit : Arc → Arc) :
    Option (Network × Arc) := do
  let arc ← (← f.arcs? s)[position]?
  return ({ f with
    states := f.states.modify s fun st => { st with arcs := st.arcs.modify position edit } },
    edit arc)

def reserveStates (f : Network) (n : Nat) : Except NetworkError Unit := reserve 32 f.size n

def reserveArcs (f : Network) (s : StateId) (n : Nat) : Except NetworkError Unit := do
  f.checkState s
  reserve 16 (f.arcsFrom s).length n

/-- Orders arcs by input label, then by output label. -/
def arcLe (a b : Arc) : Bool :=
  a.input < b.input || (a.input == b.input && a.output ≤ b.output)

/-- Sorts the arcs of every state; arcs with the same labels keep their order. -/
def sortArcs (f : Network) : Network :=
  { f with states := f.states.map fun st => { st with arcs := st.arcs.mergeSort arcLe } }

end Network

end WildcardNet
