import WildcardNet.Network.Matcher
import WildcardNet.Network.Stage
import WildcardNet.Network.Trim
/-!
# Synchronizing an alternation rule

A compiled rule spells an alternative `x` to `y` as three arcs: one that reads `x` and writes
nothing, a separator, and one that writes `y`. Synchronizing links the three up into one arc that
reads `x` and writes `y`, for every way to choose them, and then deletes the separators.
-/

namespace WildcardNet

/-- An identity wildcard that faces another label becomes the other wildcard. -/
def Wildcards.unbind (w : Wildcards) (x y : Label) : Label × Label :=
  if x = w.identity ∧ y ≠ w.identity then (w.other, y)
  else if y = w.identity ∧ x ≠ w.identity then (x, w.other)
  else (x, y)

namespace RuleMarks

/-- The arc can be the first of three: it copies its label, or it writes nothing. -/
def opens (rule : RuleMarks) (a : Arc) : Bool :=
  a.isIdentity || rule.weaken a.output == Label.epsilon

/-- The arc that stands for a first and a last arc. -/
def link (rule : RuleMarks) (w : Wildcards) (first : PlacedArc) (last : Arc) : PlacedArc :=
  let (i, o) := w.unbind (rule.weaken first.arc.input) (rule.weaken last.output)
  ⟨first.source, ⟨i, o, Weight.one, last.target⟩⟩

/-- The links that begin with a given arc. There is no answer when an arc on the way leads to a
state that does not exist. -/
def linksOf (rule : RuleMarks) (w : Wildcards) (first : PlacedArc) :
    StateT Matcher Option (List PlacedArc) := fun m => do
  let (bridges, m) ← m.find? first.arc.target rule.separator
  let lasts ← bridges.mapM fun bridge => m.network.arcs? bridge.target
  return (lasts.flatten.map (rule.link w first), m)

/-- All links of a network, and the matcher after the scan. -/
def links (rule : RuleMarks) (w : Wildcards) (f : Network) : Option (List PlacedArc × Matcher) := do
  let first := f.placedArcs.filter fun a => rule.opens a.arc
  let (links, m) ← (first.mapM (rule.linksOf w)).run { network := f }
  return (links.flatten, m)

end RuleMarks

namespace Network

/-- Links up the halves of a rule and deletes its separators. -/
def synchronize (f : Network) (rule : RuleMarks) (w : Wildcards) : Outcome NetworkError Unit :=
  match rule.links w f.sortArcs with
  | none => ⟨f.sortArcs, [], .error .danglingArc⟩
  | some (links, m) =>
    ((f.sortArcs.insertStaged links).andThen fun g linked =>
      (g.pruneArcs fun a => a.input == rule.separator).andThen fun h separators =>
        ⟨h, [.ruleSynchronized linked separators h.size], .ok ()⟩).after
      [.ruleScanned m.indexedStates]

end Network

end WildcardNet
