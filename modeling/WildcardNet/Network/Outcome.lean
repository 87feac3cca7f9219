import WildcardNet.Network.Build
/-!
# Outcomes

An operation that edits a network may break off half-way. Its outcome says how the network stands
then, what was reported up to that point, and the result or the reason why it broke off.
-/

namespace WildcardNet

structure Outcome (ε α : Type) where
  network : Network
  events : List Event
  result : Except ε α

namespace Outcome

variable {ε δ α β : Type}

/-- Goes on with the network and the result, unless the operation broke off. -/
def andThen (o : Outcome ε α) (next : Network → α → Outcome ε β) : Outcome ε β :=
  match o.result with
  | .ok a =>
    let o' := next o.network a
    { o' with events := o.events ++ o'.events }
  | .error e => ⟨o.network, o.events, .error e⟩

def mapError (o : Outcome ε α) (g : ε → δ) : Outcome δ α :=
  ⟨o.network, o.events, o.result.mapError g⟩

/-- Something was reported before the operation. -/
def after (events : List Event) (o : Outcome ε α) : Outcome ε α :=
  { o with events := events ++ o.events }

end Outcome

end WildcardNet
