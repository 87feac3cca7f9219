import WildcardNet.Network.Basic
/-!
# Writing a listing

The start state comes first, so that reading the listing finds it again if it has a line, and the
other states follow in order. A weight equal to zero is left out. A network without a start is
written as nothing.
-/

namespace WildcardNet.Listing

/-- Fields on a line, with a tab between them. -/
def line (fields : List (List Char)) : List Char := List.intercalate ['\t'] fields ++ ['\n']

/-- The field of a weight, unless it can be left out. -/
def weightField (w : Weight) : List (List Char) := if w.isOne then [] else [w.render]

def arcLine (s : StateId) (a : Arc) : List Char :=
  line ([Text.numeral s, Text.numeral a.target, Text.numeral a.input.toNat,
    Text.numeral a.output.toNat] ++ weightField a.weight)

/-- The line of a final state. -/
def finalLine (s : StateId) (w : Weight) : List Char :=
  if w.isZero then [] else line (Text.numeral s :: weightField w)

def stateLines (s : StateId) (st : State) : List Char :=
  st.arcs.flatMap (arcLine s) ++ finalLine s st.final

/-- All states, the start first. -/
def stateOrder (f : Network) (start : StateId) : List StateId :=
  start :: (List.range f.size).filter (· ≠ start)

def write (f : Network) : List Char :=
  match f.start with
  | none => []
  | some start => (stateOrder f start).flatMap fun s =>
    match f.states[s]? with
    | some st => stateLines s st
    | none => []

/-- The listing, if it takes no more than `room` bytes. It holds ASCII characters only. -/
def writeWithin? (f : Network) (room : Nat) : Option (List Char) :=
  if (write f).length ≤ room then some (write f) else none

end WildcardNet.Listing
