import WildcardNet.Settings
/-!
# Events

What the operations report while they run. An event is shown as one line of a log: its level, its
message, and the numbers that go with it.
-/

namespace WildcardNet

/-- The side of an arc on which a label stands. -/
inductive Side
  | input
  | output
deriving DecidableEq, Repr

inductive Level
  | trace
  | debug
  | info
  | warn
deriving DecidableEq, Repr

inductive Event
  | startMissing (states : Nat)
  | startDead (states : Nat)
  | nothingToTrim (states : Nat)
  | trimmed (before after : Nat)
  | demoted (side : Side) (count : Nat)
  | restored (relabeled added : Nat)
  | expanded (symbols added : Nat)
  | stripped (removed states : Nat)
  | projected (side : Side) (widened : Nat)
  | blanked (side : Side) (demoted : Nat)
  | ruleScanned (indexed : Nat)
  | ruleSynchronized (linked separators states : Nat)
  | alphabetEmpty (pass : String)
  | alphabetSpelledOut (symbols : Nat) (pass : String)
  | listingRead (states arcs : Nat)
  | settingsResolved (settings : Settings)
deriving DecidableEq

namespace Level

def name : Level → String
  | .trace => "TRACE"
  | .debug => "DEBUG"
  | .info => "INFO"
  | .warn => "WARN"

/-- How grave an event of the level is. -/
def gravity : Level → Nat
  | .trace => 0
  | .debug => 1
  | .info => 2
  | .warn => 3

end Level

namespace Event

def level : Event → Level
  | .startMissing _ | .startDead _ | .nothingToTrim _ | .trimmed _ _ | .ruleScanned _ => .trace
  | .alphabetSpelledOut _ _ => .info
  | .alphabetEmpty _ => .warn
  | _ => .debug

/-- A number with its name, as it follows a message. -/
def field (name : String) (n : Nat) : String := " " ++ name ++ "=" ++ n.repr

def passField (pass : String) : String := " pass=\"" ++ pass ++ "\""

def text : Event → String
  | .startMissing states => "connect: no start state, clearing" ++ field "states" states
  | .startDead states => "connect: start state is dead, clearing" ++ field "states" states
  | .nothingToTrim states => "connect: nothing to trim" ++ field "states" states
  | .trimmed before after =>
    "connect: trimmed states" ++ field "before" before ++ field "after" after
  | .demoted .input n => "demoted input-side OTHER_ID" ++ field "demoted" n
  | .demoted .output n => "demoted output-side OTHER_ID" ++ field "demoted" n
  | .restored relabeled added =>
    "restored wildcards after composition" ++ field "relabeled" relabeled ++ field "added" added
  | .expanded symbols added =>
    "expanded wildcard arcs" ++ field "symbols" symbols ++ field "added" added
  | .stripped removed states =>
    "deleted wildcard arcs" ++ field "removed" removed ++ field "states" states
  | .projected .input widened => "normalized projection side=Input" ++ field "widened" widened
  | .projected .output widened => "normalized projection side=Output" ++ field "widened" widened
  | .blanked .input n => "replaced input side with epsilon" ++ field "demoted" n
  | .blanked .output n => "replaced output side with epsilon" ++ field "demoted" n
  | .ruleScanned indexed => "alternation rule link-up scanned" ++ field "indexed" indexed
  | .ruleSynchronized linked separators states =>
    "synchronized alternation rule" ++ field "linked" linked ++ field "separators" separators ++
      field "states" states
  | .alphabetEmpty pass => "empty alphabet, nothing to expand" ++ passField pass
  | .alphabetSpelledOut symbols pass =>
    "alphabet spelled out" ++ field "symbols" symbols ++ passField pass
  | .listingRead states arcs =>
    "read AT&T transducer" ++ field "states" states ++ field "arcs" arcs
  | .settingsResolved settings => "resolved pass configuration config=" ++ settings.text

def line (e : Event) : String := e.level.name ++ " " ++ e.text

end Event

end WildcardNet
