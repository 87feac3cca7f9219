import WildcardNet.Pass.Expand
import WildcardNet.Pass.Relabel
import WildcardNet.Pass.Restore
import WildcardNet.Pass.Synchronize
/-!
# Passes by name

The passes that can be asked for by name, and how each is run with given settings.
-/

namespace WildcardNet

inductive Pass
  | demote (side : Side)
  | restore
  | expand
  | strip
  | close
  | project (side : Side)
  | blank (side : Side)
  | synchronize
deriving DecidableEq, Repr

/-- Why a pass is refused or breaks off. -/
inductive PassError
  | label (e : LabelError)
  | network (e : NetworkError)
  /-- The pass needs rule marks, and the settings have none. -/
  | ruleMissing
deriving DecidableEq, Repr

namespace Pass

def all : List Pass :=
  [.demote .input, .demote .output, .restore, .expand, .strip, .close, .project .input,
    .project .output, .blank .input, .blank .output, .synchronize]

def name : Pass → String
  | .demote .input => "demote-input"
  | .demote .output => "demote-output"
  | .restore => "restore"
  | .expand => "expand"
  | .strip => "strip"
  | .close => "close"
  | .project .input => "project-input"
  | .project .output => "project-output"
  | .blank .input => "input-epsilon"
  | .blank .output => "output-epsilon"
  | .synchronize => "sync-rule"

def ofName? (name : String) : Option Pass := all.find? fun p => p.name == name

/-- Runs a pass that spells out wildcards, over a checked alphabet and with a report on its
symbols. -/
def runOverAlphabet (p : Pass) (c : Settings) (f : Network)
    (pass : List Label → Outcome NetworkError (List Label)) : Outcome PassError Unit :=
  match c.checkedAlphabet with
  | .error e => ⟨f, [], .error (.label e)⟩
  | .ok alphabet =>
    (((pass alphabet).mapError .network).andThen fun g symbols =>
      ⟨g, [.alphabetSpelledOut symbols.length p.name], .ok ()⟩).after
      (if alphabet.isEmpty then [.alphabetEmpty p.name] else [])

def run (p : Pass) (c : Settings) (f : Network) : Outcome PassError Unit :=
  match p with
  | .demote side => (f.demote c.wildcards side).mapError .network
  | .restore => (f.restore c.wildcards).mapError .network
  | .expand => p.runOverAlphabet c f (f.expand c.wildcards)
  | .strip => (f.strip c.wildcards).mapError .network
  | .close => p.runOverAlphabet c f (f.close c.wildcards)
  | .project side => (f.project c.wildcards side).mapError .network
  | .blank side => (f.blank c.wildcards side).mapError .network
  | .synchronize =>
    match c.rule with
    | none => ⟨f, [], .error .ruleMissing⟩
    | some rule => (f.synchronize rule c.wildcards).mapError .network

end Pass

theorem Pass.ofName?_name (p : Pass) : Pass.ofName? p.name = some p := by
  rcases p with (_ | _) | _ | _ | _ | _ | (_ | _) | (_ | _) | _ <;> rfl

end WildcardNet
