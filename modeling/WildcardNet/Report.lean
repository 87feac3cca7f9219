import WildcardNet.Network.Basic
/-!
# Reports on wildcard usage

A finished network pairs the identity wildcard only with itself. A report lists the arcs that break
this rule, and says whether wildcards occur and whether the network maps every symbol to itself.
-/

namespace WildcardNet

/-- Where an arc stands, and what it reads and writes. -/
structure ArcPlace where
  state : StateId
  position : Nat
  input : Label
  output : Label
deriving DecidableEq, Repr

structure Report where
  disallowed : List ArcPlace
  hasWildcards : Bool
  semanticAcceptor : Bool
deriving DecidableEq, Repr

namespace Network

/-- The arcs that pair the identity wildcard with another label. -/
def disallowedPairs (f : Network) (w : Wildcards) : List ArcPlace :=
  f.states.toList.zipIdx.flatMap fun (st, s) =>
    (st.arcs.zipIdx.filter fun (a, _) => w.isDisallowedPair a.input a.output).map fun (a, k) =>
      ⟨s, k, a.input, a.output⟩

def containsWildcard (f : Network) (w : Wildcards) : Bool :=
  f.anyArc fun a => w.isWildcard a.input || w.isWildcard a.output

/-- Every arc reads what it writes, unknown symbols included. -/
def isSemanticAcceptor (f : Network) (w : Wildcards) : Bool :=
  f.isAcceptor && f.allArcs fun a => a.input != w.other

theorem disallowedPairs_eq_nil_iff {f : Network} {w : Wildcards} :
    f.disallowedPairs w = [] ↔
      ∀ st ∈ f.states, ∀ a ∈ st.arcs, w.isDisallowedPair a.input a.output = false := by
  simp only [disallowedPairs, List.flatMap_eq_nil_iff, List.map_eq_nil_iff, List.filter_eq_nil_iff,
    Bool.not_eq_true]
  constructor
  · intro h st hst a ha
    obtain ⟨s, hs⟩ := List.mem_iff_getElem?.1 (Array.mem_toList_iff.2 hst)
    obtain ⟨k, hk⟩ := List.mem_iff_getElem?.1 ha
    exact h (st, s) (List.mem_zipIdx_iff_getElem?.2 hs) (a, k) (List.mem_zipIdx_iff_getElem?.2 hk)
  · rintro h ⟨st, s⟩ hst ⟨a, k⟩ ha
    exact h st (Array.mem_toList_iff.1 (List.fst_mem_of_mem_zipIdx hst)) a
      (List.fst_mem_of_mem_zipIdx ha)

def report (f : Network) (w : Wildcards) : Report :=
  ⟨f.disallowedPairs w, f.containsWildcard w, f.isSemanticAcceptor w⟩

end Network

namespace Report

def isClean (r : Report) : Bool := r.disallowed.isEmpty

def answerWord (b : Bool) : String := if b then "yes" else "no"

def text (r : Report) : String :=
  String.join (r.disallowed.map fun l =>
    "disallowed: state " ++ l.state.repr ++ " arc " ++ l.position.repr ++ ": " ++
      l.input.toNat.repr ++ ":" ++ l.output.toNat.repr ++ "\n") ++
    "disallowed pairs: " ++ r.disallowed.length.repr ++ "\nwildcards: " ++
    answerWord r.hasWildcards ++ "\nsemantic acceptor: " ++ answerWord r.semanticAcceptor

end Report

end WildcardNet
