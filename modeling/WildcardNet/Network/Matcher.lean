import Std.Data.HashMap
import WildcardNet.Network.Basic
/-!
# Matching on input labels

A matcher answers which arcs of a state read a given input label. The first query of a state builds
a table that lists, for every label, where in storage the arcs with that label are; later queries
only look it up.
-/

namespace WildcardNet

/-- The positions of a state's arcs by their input label, each list in storage order. -/
abbrev ArcTable := Std.HashMap Label (List Nat)

/-- The table of arcs at given positions. -/
def ArcTable.ofPlaces (places : List (Arc × Nat)) : ArcTable :=
  places.foldr (fun (a, position) table =>
    table.alter a.input fun later => some (position :: later.getD [])) ∅

def ArcTable.ofArcs (arcs : List Arc) : ArcTable := ofPlaces arcs.zipIdx

structure Matcher where
  network : Network
  tables : Std.HashMap StateId ArcTable := ∅

namespace Matcher

/-- The number of states that have a table. -/
def indexedStates (m : Matcher) : Nat := m.tables.size

/-- The matcher with a table for the state, whose arcs are given. -/
def index (m : Matcher) (s : StateId) (arcs : List Arc) : Matcher :=
  if s ∈ m.tables then m else { m with tables := m.tables.insert s (ArcTable.ofArcs arcs) }

/-- The arcs of the state that read the label, and the matcher with the state's table in it. There
is no answer for a state that the network does not have. -/
def find? (m : Matcher) (s : StateId) (label : Label) : Option (List Arc × Matcher) := do
  let arcs ← m.network.arcs? s
  let m := m.index s arcs
  let table ← m.tables[s]?
  return (← (table.getD label []).mapM (arcs[·]?), m)

end Matcher

theorem ArcTable.getD_ofPlaces (places : List (Arc × Nat)) (label : Label) :
    (ArcTable.ofPlaces places).getD label [] =
      (places.filter fun p => p.1.input == label).map Prod.snd := by
  induction places with
  | nil => simp [ArcTable.ofPlaces]
  | cons p places ih =>
    have hstep : ArcTable.ofPlaces (p :: places) =
        (ArcTable.ofPlaces places).alter p.1.input fun later => some (p.2 :: later.getD []) := rfl
    rw [hstep, Std.HashMap.getD_alter, List.filter_cons]
    by_cases h : p.1.input = label
    · subst h
      simp [← ih, Std.HashMap.getD_eq_getD_getElem?]
    · simp [h, ih]

end WildcardNet
