import WildcardNet.Label
/-!
# Settings of a pass

A pass is told which labels play which role, and over which symbols to spell out wildcards.
-/

namespace WildcardNet

structure Settings where
  wildcards : Wildcards
  rule : Option RuleMarks := none
  alphabet : List Label := []
deriving DecidableEq, Repr

namespace Settings

/-- The alphabet, if it is one. -/
def checkedAlphabet (c : Settings) : Except LabelError (List Label) :=
  checkAlphabet c.wildcards c.alphabet

/-- The wildcards are in order, and so are the rule marks and the alphabet beside them. -/
def check (c : Settings) : Except LabelError Unit := do
  c.wildcards.check
  match c.rule with
  | some rule => rule.check c.wildcards
  | none => .ok ()
  let _ ← c.checkedAlphabet
  return ()

/-- The settings on one line, as shown in a log. -/
def text (c : Settings) : String :=
  let number (l : Label) : String := l.toNat.repr
  let rule := match c.rule with
    | none => "None"
    | some r => "Some(RuleLabels \x7b separator: " ++ number r.separator ++ ", hard_epsilon: " ++
        number r.hardEpsilon ++ " \x7d)"
  "PassConfig \x7b wildcards: WildcardLabels \x7b other_id: " ++ number c.wildcards.identity ++
    ", other_nonid: " ++ number c.wildcards.other ++ " \x7d, rule: " ++ rule ++ ", alphabet: [" ++
    ", ".intercalate (c.alphabet.map number) ++ "] \x7d"

end Settings

end WildcardNet
