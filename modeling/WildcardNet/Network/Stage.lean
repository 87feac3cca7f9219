import WildcardNet.Network.Outcome
/-!
# Staged arcs

Arcs found during a scan are staged and inserted once the scan is over, in staging order. Insertion
stops at the first arc whose source or target does not exist; the arcs before it are in the network
by then, and the ones behind it are dropped. Memory for staged arcs is taken to be there.
-/

namespace WildcardNet.Network

/-- Takes staged arcs one by one and adds each to the network, until one is refused. What is still
staged in the end comes with the outcome. -/
def addStaged (f : Network) : List PlacedArc → List PlacedArc × Outcome NetworkError Unit
  | [] => ([], ⟨f, [], .ok ()⟩)
  | a :: rest =>
    match f.addArc a with
    | .ok g => g.addStaged rest
    -- the arcs behind it do not stay staged
    | .error e => ([], ⟨f, [], .error e⟩)

/-- Inserts all arcs of a stage and gives their number. -/
def applyStage (f : Network) (stage : List PlacedArc) :
    List PlacedArc × Outcome NetworkError Nat :=
  let (left, added) := f.addStaged stage
  (left, { added with result := added.result.map fun _ => stage.length })

/-- Inserts arcs through a stage that is used once. -/
def insertStaged (f : Network) (staged : List PlacedArc) : Outcome NetworkError Nat :=
  (f.applyStage staged).2

/-- Room for more staged arcs. -/
def reserveStaged (staged : List PlacedArc) (n : Nat) : Except NetworkError Unit :=
  reserve 20 staged.length n

end WildcardNet.Network
