import WildcardNet.Network.Build
import WildcardNet.Text.Blank
import WildcardNet.Text.Quoted
/-!
# Lines of a listing

A listing describes a network in plain text, one line for each arc and for each final state. A
line of one or two fields makes a state final, a line of four or five adds an arc; the last field,
a weight, may be left out.
-/

namespace WildcardNet.Listing

inductive Entry
  | final (state : StateId) (weight : Weight)
  | arc (placed : PlacedArc)
deriving DecidableEq

/-- What is wrong with a line. -/
inductive LineFault
  | badState (field : List Char)
  | badLabel (field : List Char)
  | badWeight (field : List Char)
  | fieldCount (found : Nat)
  /-- The state is larger than the number of times that the listing names a state. -/
  | stateOutOfRange (state references : Nat)
deriving DecidableEq, Repr

def LineFault.message : LineFault → String
  | .badState field => "invalid state id " ++ Text.quoted field
  | .badLabel field => "invalid label " ++ Text.quoted field
  | .badWeight field => "invalid weight " ++ Text.quoted field
  | .fieldCount found => "expected 1, 2, 4 or 5 fields, found " ++ found.repr
  | .stateOutOfRange state references =>
    "state id " ++ state.repr ++ " out of range for " ++ references.repr ++ " state references"

namespace Entry

/-- The state that the line is about. -/
def source : Entry → StateId
  | .final state _ => state
  | .arc placed => placed.source

/-- The largest state that the line names. -/
def largestState : Entry → StateId
  | .final state _ => state
  | .arc placed => max placed.source placed.arc.target

/-- How many times the line names a state. -/
def references : Entry → Nat
  | .final _ _ => 1
  | .arc _ => 2

end Entry

def readState (field : List Char) : Except LineFault StateId :=
  match Text.readUInt32? field with
  | some n => .ok n.toNat
  | none => .error (.badState field)

def readLabel (field : List Char) : Except LineFault Label :=
  match Text.readUInt32? field with
  | some n => .ok n
  | none => .error (.badLabel field)

def readWeight (field : List Char) : Except LineFault Weight :=
  match Weight.read? field with
  | some w => .ok w
  | none => .error (.badWeight field)

def readFinal (state : List Char) (weight : Except LineFault Weight) : Except LineFault Entry := do
  let s ← readState state
  return .final s (← weight)

def readArc (source target input output : List Char) (weight : Except LineFault Weight) :
    Except LineFault Entry := do
  let s ← readState source
  let t ← readState target
  let i ← readLabel input
  let o ← readLabel output
  return .arc ⟨s, ⟨i, o, ← weight, t⟩⟩

/-- The entry made of the fields of a line, which are read from left to right. -/
def readEntry : List (List Char) → Except LineFault Entry
  | [s] => readFinal s (.ok Weight.one)
  | [s, w] => readFinal s (readWeight w)
  | [s, t, i, o] => readArc s t i o (.ok Weight.one)
  | [s, t, i, o, w] => readArc s t i o (readWeight w)
  | fields => .error (.fieldCount fields.length)

end WildcardNet.Listing
