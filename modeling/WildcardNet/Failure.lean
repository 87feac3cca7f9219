import WildcardNet.Listing.Reader
import WildcardNet.Pass
/-!
# Failures

Everything that can end a program early, and the message for each.
-/

namespace WildcardNet

/-- A command line that cannot be followed. -/
inductive UsageError
  | valueMissing (option : String)
  | badLabel (option : String) (text : List Char)
  | unknownOption (name : String)
  | wildcardsMissing
  /-- One of the two rule marks is given without the other. -/
  | halfRule
  | unknownPass (name : String)
  /-- A pass needs rule marks that are not given. -/
  | ruleMissing
  | passMissing
  | manyPasses
  | argumentsGiven
deriving DecidableEq, Repr

/-- Why a file cannot be read. -/
inductive FileError
  | missing
  | notADirectory
  | isADirectory
  | notText
  /-- Another reason, in the words of the system. -/
  | system (text : String)
deriving DecidableEq, Repr

inductive Failure
  | usage (e : UsageError)
  | parse (line : Nat) (fault : Listing.LineFault)
  | configRead (path : String) (reason : FileError)
  | configParse (path : String)
  | label (e : LabelError)
  | network (e : NetworkError)
  /-- The input holds a line that is not text. -/
  | inputNotText
  /-- There is no room for the whole output. -/
  | outputFull
deriving DecidableEq, Repr

def UsageError.message : UsageError → String
  | .valueMissing option => option ++ " requires a value"
  | .badLabel option text => option ++ ": invalid label " ++ Text.quoted text
  | .unknownOption name => "unknown option " ++ name
  | .wildcardsMissing =>
    "wildcard labels not configured: pass --other-id and --other-nonid or a config file"
  | .halfRule => "--separator and --hard-epsilon must be given together"
  | .unknownPass name => "unknown pass " ++ Text.quoted name.toList
  | .ruleMissing => "sync-rule needs --separator and --hard-epsilon"
  | .passMissing => "missing pass name (see --help)"
  | .manyPasses => "expected exactly one pass name"
  | .argumentsGiven => "wildfst-check takes no positional arguments"

def FileError.message : FileError → String
  | .missing => "No such file or directory (os error 2)"
  | .notADirectory => "Not a directory (os error 20)"
  | .isADirectory => "Is a directory (os error 21)"
  | .notText => "stream did not contain valid UTF-8"
  | .system text => text

namespace Failure

def message : Failure → String
  | .usage e => e.message
  | .parse line fault => "line " ++ line.repr ++ ": " ++ fault.message
  | .configRead path reason => "failed to read config " ++ path ++ ": " ++ reason.message
  | .configParse path => "invalid config " ++ path
  | .label e => "invalid label configuration: " ++ e.message
  | .network e => e.message
  | .inputNotText => "I/O error: stream did not contain valid UTF-8"
  | .outputFull => "I/O error: failed to write whole buffer"

def ofReadError : Listing.ReadError → Failure
  | .badLine line fault => .parse line fault
  | .notText => .inputNotText

def ofPassError : PassError → Failure
  | .label e => .label e
  | .network e => .network e
  | .ruleMissing => .usage .ruleMissing

end Failure

/-- The pass of that name. -/
def Pass.named (name : String) : Except UsageError Pass :=
  match Pass.ofName? name with
  | some p => .ok p
  | none => .error (.unknownPass name)

end WildcardNet
