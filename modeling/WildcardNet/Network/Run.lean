import WildcardNet.Network.Basic
/-!
# Runs

A run follows arcs from state to state. It is successful when it leads from the start to a final
state. A network accepts a string of label pairs when the arcs of some successful run read its pairs
one after the other, under a given notion of what an arc reads.
-/

namespace WildcardNet.Network

/-- The arcs lead from one state to another, each leaving the state that the one before it leads
to. -/
inductive Run (f : Network) : StateId → List Arc → StateId → Prop
  | nil (s : StateId) : Run f s [] s
  | cons {s t : StateId} {a : Arc} {arcs : List Arc} (leaves : a ∈ f.arcsFrom s)
      (rest : Run f a.target arcs t) : Run f s (a :: arcs) t

def IsFinal (f : Network) (s : StateId) : Prop := ∃ st, f.states[s]? = some st ∧ st.isFinal = true

def Reaches (f : Network) (s t : StateId) : Prop := ∃ arcs, f.Run s arcs t

/-- The state lies on a run from the start to a final state. -/
def Useful (f : Network) (s : StateId) : Prop :=
  (∃ start ∈ f.start, f.Reaches start s) ∧ ∃ t, f.Reaches s t ∧ f.IsFinal t

/-- The string can be read on a run from the state to a final one. -/
inductive AcceptsFrom (f : Network) (reads : Arc → Label × Label → Prop) :
    StateId → List (Label × Label) → Prop
  | nil {s : StateId} (final : f.IsFinal s) : AcceptsFrom f reads s []
  | cons {s : StateId} {a : Arc} {pair : Label × Label} {string : List (Label × Label)}
      (leaves : a ∈ f.arcsFrom s) (read : reads a pair)
      (rest : AcceptsFrom f reads a.target string) : AcceptsFrom f reads s (pair :: string)

def Accepts (f : Network) (reads : Arc → Label × Label → Prop) (string : List (Label × Label)) :
    Prop :=
  ∃ start ∈ f.start, f.AcceptsFrom reads start string

theorem Run.append {f : Network} {s t u : StateId} {xs ys : List Arc} (h : f.Run s xs t)
    (h' : f.Run t ys u) : f.Run s (xs ++ ys) u := by
  induction h with
  | nil => exact h'
  | cons leaves _ ih => exact .cons leaves (ih h')

theorem Reaches.refl (f : Network) (s : StateId) : f.Reaches s s := ⟨[], .nil s⟩

theorem Reaches.trans {f : Network} {s t u : StateId} (h : f.Reaches s t) (h' : f.Reaches t u) :
    f.Reaches s u := by
  obtain ⟨xs, hxs⟩ := h
  obtain ⟨ys, hys⟩ := h'
  exact ⟨xs ++ ys, hxs.append hys⟩

end WildcardNet.Network
