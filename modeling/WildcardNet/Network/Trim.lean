import WildcardNet.Network.Outcome
/-!
# Trimming and pruning

Trimming keeps the states on some path from the start to a final state, in their order, and the arcs
between them. Pruning deletes arcs: it leads them to a new state that is not final, and trims.
-/

namespace WildcardNet

/-- Marks what can be reached from the work list, given what is marked already. There is no answer
when the search comes upon a place that does not exist. Every step but the last marks a place that
was not marked, so a budget of one step more than there are places is enough. -/
def markWithin? (next : Nat → List Nat) : Nat → Array Bool → List Nat → Option (Array Bool)
  | 0, _, _ => none
  | budget + 1, seen, work =>
    match work.dropWhile fun s => seen[s]? == some true with
    | [] => some seen
    | s :: rest =>
      if s < seen.size then markWithin? next budget (seen.setIfInBounds s true) (next s ++ rest)
      else none

/-- Marks those of `n` places that can be reached from the given ones. -/
def mark? (n : Nat) (next : Nat → List Nat) (roots : List Nat) : Option (Array Bool) :=
  markWithin? next (n + 1) (Array.replicate n false) roots

/-- Counts the marked places from `next` on. The others get no number. -/
def numberFrom (next : Nat) : List Bool → List (Option Nat)
  | [] => []
  | true :: rest => some next :: numberFrom (next + 1) rest
  | false :: rest => none :: numberFrom next rest

/-- The numbers that marked places get when only they are kept. -/
def numbering (keep : Array Bool) : Array (Option Nat) := (numberFrom 0 keep.toList).toArray

namespace Network

def successors (f : Network) (s : StateId) : List StateId := (f.arcsFrom s).map Arc.target

/-- For every state the states with an arc to it, unless an arc leads to a state that does not
exist. -/
def predecessors? (f : Network) : Option (Array (List StateId)) :=
  f.placedArcs.foldlM
    (fun found a => if a.arc.target < found.size then
      some (found.modify a.arc.target (a.source :: ·)) else none)
    (Array.replicate f.size [])

/-- Marks the states that can be reached from `start`. -/
def accessible? (f : Network) (start : StateId) : Option (Array Bool) :=
  mark? f.size f.successors [start]

def finalStates (f : Network) : List StateId :=
  (List.range f.size).filter fun s => (f.states[s]?.map State.isFinal).getD false

/-- Marks the states from which a final state can be reached. -/
def coaccessible? (f : Network) : Option (Array Bool) := do
  let before ← f.predecessors?
  mark? f.size (fun s => before.getD s []) f.finalStates

/-- Marks the states on a path from `start` to a final state. -/
def useful? (f : Network) (start : StateId) : Option (Array Bool) := do
  let forward ← f.accessible? start
  let backward ← f.coaccessible?
  return Array.zipWith (· && ·) forward backward

/-- The arcs to states that have a number, led there. There is no answer when the numbers do not go
as far as a target. -/
def moveArcs? (numbers : Array (Option StateId)) : List Arc → Option (List Arc)
  | [] => some []
  | a :: rest => do
    let number ← numbers[a.target]?
    let moved ← moveArcs? numbers rest
    match number with
    | some target => return { a with target } :: moved
    | none => return moved

/-- Appends those of the given states that have a number, with the arcs between them. The first of
the states is `s`. Where a number is looked for and there is no entry, the rest is lost. -/
def keepStates (numbers : Array (Option StateId)) :
    Network → StateId → List State → Outcome NetworkError Unit
  | g, _, [] => ⟨g, [], .ok ()⟩
  | g, s, st :: rest =>
    match numbers[s]? with
    | none => ⟨g, [], .error .danglingArc⟩
    | some none => keepStates numbers g (s + 1) rest
    | some (some _) =>
      match moveArcs? numbers st.arcs with
      | none => ⟨g, [], .error .danglingArc⟩
      | some arcs =>
        keepStates numbers { g with states := g.states.push { st with arcs } } (s + 1) rest

/-- Keeps the states on a path from the start to a final state, and numbers them anew. A network
without such a path loses all its states. What comes upon an arc to a state that does not exist
breaks off. -/
def trim (f : Network) : Outcome NetworkError Unit :=
  match f.start with
  | none => ⟨{}, [.startMissing f.size], .ok ()⟩
  | some start =>
    match f.useful? start with
    | none => ⟨f, [], .error .danglingArc⟩
    | some keep =>
      let numbers := numbering keep
      match numbers[start]? with
      | none => ⟨f, [], .error .danglingArc⟩
      | some none => ⟨{}, [.startDead f.size], .ok ()⟩
      | some (some number) =>
        if keep.all id then ⟨f, [.nothingToTrim f.size], .ok ()⟩
        else
          (keepStates numbers { f with states := #[] } 0 f.states.toList).andThen fun g _ =>
            ⟨{ g with start := some number }, [.trimmed f.size (keep.count true)], .ok ()⟩

/-- Adds a state and leads the doomed arcs there. -/
def sinkArcs (f : Network) (doomed : Arc → Bool) : Network :=
  (f.mapArcs fun a => if doomed a then { a with target := f.size } else a).addState

/-- Deletes the doomed arcs, and then whatever lies on no path to a final state. Gives the number of
doomed arcs. -/
def pruneArcs (f : Network) (doomed : Arc → Bool) : Outcome NetworkError Nat :=
  (f.sinkArcs doomed).trim.andThen fun g _ => ⟨g, [], .ok (f.countArcs doomed)⟩

end Network

end WildcardNet
