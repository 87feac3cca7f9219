import WildcardNet.Network.Stage
import WildcardNet.Network.Trim
/-!
# Spelling out wildcards

Expanding adds, beside every wildcard arc, the arcs that it stands for over an alphabet. The
wildcard arc stays and goes on standing for the symbols that are still unknown. Stripping deletes
all wildcard arcs, and closing does both. There are about as many new arcs beside an arc as the
square of the alphabet's size; memory for them is taken to be there, and room is not asked for.
-/

namespace WildcardNet

/-- Every two symbols at different places, in both orders. -/
def crossPairs : List Label → List (Label × Label)
  | [] => []
  | c :: rest => rest.flatMap (fun d => [(c, d), (d, c)]) ++ crossPairs rest

namespace Wildcards

/-- The label pairs over the alphabet that a wildcard pair stands for. -/
def spellOut (w : Wildcards) (alphabet : List Label) (input output : Label) :
    List (Label × Label) :=
  if input = w.other then
    if output = w.other then
      alphabet.flatMap (fun c => [(c, w.other), (w.other, c)]) ++ crossPairs alphabet
    else alphabet.map fun c => (c, output)
  else if output = w.other then alphabet.map fun c => (input, c)
  else if input = w.identity then alphabet.map fun c => (c, c)
  else []

/-- The arcs that a wildcard arc stands for. -/
def expandArc (w : Wildcards) (alphabet : List Label) (a : Arc) : List Arc :=
  (w.spellOut alphabet a.input a.output).map fun (i, o) => { a with input := i, output := o }

/-- A wildcard stands on one of the arc's sides. -/
def onArc (w : Wildcards) (a : Arc) : Bool := w.isWildcard a.input || w.isWildcard a.output

end Wildcards

namespace Network

/-- All arcs that wildcard arcs of the network stand for. -/
def expansions (f : Network) (w : Wildcards) (alphabet : List Label) : List PlacedArc :=
  f.placedArcs.flatMap fun a => (w.expandArc alphabet a.arc).map fun b => { a with arc := b }

/-- Adds the arcs that wildcard arcs stand for, and gives the symbols of the alphabet. -/
def expand (f : Network) (w : Wildcards) (alphabet : List Label) :
    Outcome NetworkError (List Label) :=
  if alphabet.isEmpty then ⟨f, [], .ok []⟩
  else
    (f.insertStaged (f.expansions w alphabet)).andThen fun g added =>
      ⟨g, [.expanded alphabet.length added], .ok alphabet.eraseDups⟩

/-- Deletes the wildcard arcs and what only they kept alive. -/
def strip (f : Network) (w : Wildcards) : Outcome NetworkError Unit :=
  (f.pruneArcs w.onArc).andThen fun g removed => ⟨g, [.stripped removed g.size], .ok ()⟩

def close (f : Network) (w : Wildcards) (alphabet : List Label) :
    Outcome NetworkError (List Label) :=
  (f.expand w alphabet).andThen fun g symbols =>
    (g.strip w).andThen fun h _ => ⟨h, [], .ok symbols⟩

end Network

end WildcardNet
