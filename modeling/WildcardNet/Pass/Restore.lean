import WildcardNet.Network.Stage
/-!
# Restoring wildcards after composition

Composition compares labels as numbers. Afterwards an identity wildcard may face another label, and
two other wildcards that met may have been one symbol passed through. Restoring turns the lone
identity wildcard into the other wildcard, and gives every arc with the other wildcard on both sides
a twin with the identity wildcard on both. Memory for the twins is taken to be there.
-/

namespace WildcardNet

namespace Wildcards

/-- An identity wildcard that faces another label becomes the other wildcard. -/
def repairArc (w : Wildcards) (a : Arc) : Arc :=
  if a.input = w.identity then
    if a.output = w.identity then a else { a with input := w.other }
  else if a.output = w.identity then { a with output := w.other }
  else a

/-- The arc has the other wildcard on both sides. -/
def needsTwin (w : Wildcards) (a : Arc) : Bool :=
  a.input != w.identity && a.input == w.other && a.output == w.other

def twin (w : Wildcards) (a : Arc) : Arc := { a with input := w.identity, output := w.identity }

end Wildcards

namespace Network

/-- The twins of a network's arcs. -/
def twins (f : Network) (w : Wildcards) : List PlacedArc :=
  (f.placedArcs.filter fun a => w.needsTwin a.arc).map fun a => { a with arc := w.twin a.arc }

def restore (f : Network) (w : Wildcards) : Outcome NetworkError Unit :=
  ((f.mapArcs w.repairArc).insertStaged (f.twins w)).andThen fun g added =>
    ⟨g, [.restored (f.countArcs fun a => w.isDisallowedPair a.input a.output) added], .ok ()⟩

end Network

end WildcardNet
