import WildcardNet.Network.Outcome
/-!
# Passes that relabel arcs in place

Demoting turns the identity wildcard on one side into the other wildcard, before two networks are
composed along that side. Projecting keeps one side and copies it to the other; the other
wildcard, copied, means the same unknown symbol on both sides and becomes the identity wildcard.
Blanking a side replaces it by epsilon, after which an identity wildcard opposite has nothing to
be identical to.
-/

namespace WildcardNet

/-- Replaces the label on the given side. -/
def Arc.setLabel (a : Arc) (label : Label) : Side → Arc
  | .input => { a with input := label }
  | .output => { a with output := label }

def Side.opposite : Side → Side
  | .input => .output
  | .output => .input

namespace Wildcards

/-- The identity wildcard without its promise. -/
def demoteLabel (w : Wildcards) (label : Label) : Label :=
  if label = w.identity then w.other else label

def demoteArc (w : Wildcards) (side : Side) (a : Arc) : Arc :=
  a.setLabel (w.demoteLabel (a.label side)) side

def projectArc (w : Wildcards) (side : Side) (a : Arc) : Arc :=
  let kept := if a.label side = w.other then w.identity else a.label side
  { a with input := kept, output := kept }

def blankArc (w : Wildcards) (side : Side) (a : Arc) : Arc :=
  (w.demoteArc side.opposite a).setLabel Label.epsilon side

end Wildcards

namespace Network

def demote (f : Network) (w : Wildcards) (side : Side) : Outcome NetworkError Unit where
  network := f.mapArcs (w.demoteArc side)
  events := [.demoted side (f.countArcs fun a => a.label side == w.identity)]
  result := .ok ()

def project (f : Network) (w : Wildcards) (side : Side) : Outcome NetworkError Unit where
  network := f.mapArcs (w.projectArc side)
  events := [.projected side (f.countArcs fun a => a.label side == w.other)]
  result := .ok ()

def blank (f : Network) (w : Wildcards) (side : Side) : Outcome NetworkError Unit where
  network := f.mapArcs (w.blankArc side)
  events := [.blanked side (f.countArcs fun a => a.label side.opposite == w.identity)]
  result := .ok ()

end Network

end WildcardNet
