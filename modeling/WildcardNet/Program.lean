import WildcardNet.Listing.Writer
import WildcardNet.Options
import WildcardNet.Report
/-!
# The two programs

One program runs a pass on the listing that it is given and writes the listing of the result; the
other reports on the wildcards of a listing. Both are functions from what they are given to what
they put out.
-/

namespace WildcardNet

inductive Program
  | pass
  | check
deriving DecidableEq, Repr

/-- What a program is given besides its input. -/
structure Invocation where
  arguments : List String
  /-- The path of a settings file from the environment. -/
  environment : Option String
  fileAt : String → Except FileError ByteArray
  /-- The settings that the text of a file holds. -/
  parse? : List Char → Option Settings

/-- What a program puts out: an exit code, its output, and messages in order. -/
structure Output where
  exitCode : UInt32 := 0
  output : String := ""
  messages : List String := []
deriving DecidableEq, Repr

namespace Program

def helpText : Program → String
  | .pass =>
    "wildfst-pass: Run one wildcard pass on an AT&T-format transducer.\n\n" ++
    "Usage: wildfst-pass [OPTIONS] <PASS> < in.att > out.att\n\nPasses:\n" ++
    String.join (Pass.all.map fun p => "  " ++ p.name ++ "\n") ++
    "\nOptions:\n" ++
    "  -c, --config PATH        JSON pass configuration (default: $WILDFST_CONFIG)\n" ++
    "  --other-id N             Identity wildcard label\n" ++
    "  --other-nonid N          Non-identity wildcard label\n" ++
    "  --alphabet N,N,...       Symbols for expand/close\n" ++
    "  --separator N            Rule separator label (sync-rule)\n" ++
    "  --hard-epsilon N         Hard-epsilon label (sync-rule)\n" ++
    "  -v, --verbose            Log pass summaries to stderr\n" ++
    "  -h, --help               Print this help\n"
  | .check =>
    "wildfst-check: Audit wildcard usage in an AT&T-format transducer.\n\n" ++
    "Usage: wildfst-check [OPTIONS] < in.att\n\n" ++
    "Exits with code 1 if an arc pairs the identity wildcard with\nany other label.\n\n" ++
    "Options:\n" ++
    "  -c, --config PATH        JSON pass configuration (default: $WILDFST_CONFIG)\n" ++
    "  --other-id N             Identity wildcard label\n" ++
    "  --other-nonid N          Non-identity wildcard label\n" ++
    "  -v, --verbose            Verbose logging to stderr\n" ++
    "  -h, --help               Print this help\n"

/-- The lines shown of what was reported: warnings only, or all but traces when verbose. -/
def shown (verbose : Bool) (events : List Event) : List String :=
  let least := if verbose then Level.debug else Level.warn
  (events.filter fun e => least.gravity ≤ e.level.gravity).map Event.line

/-- The output of a program that ends with a failure, after the given messages. -/
def failed (messages : List String) (e : Failure) : Output where
  exitCode := 1
  messages := messages ++ ["error: " ++ e.message]

/-- The one pass that is asked for. -/
def passOf : List String → Except UsageError Pass
  | [] => .error .passMissing
  | [name] => Pass.named name
  | _ => .error .manyPasses

/-- Reads the listing, and goes on with the events so far and the network. -/
def withNetwork (o : Options) (settings : Settings) (input : ByteArray)
    (next : List Event → Network → Output) : Output :=
  let events := [Event.settingsResolved settings]
  match Listing.read input with
  | .error e => failed (shown o.verbose events) (.ofReadError e)
  | .ok f => next (events ++ [Listing.readEvent f]) f

def runPass (o : Options) (settings : Settings) (p : Pass) (input : ByteArray) : Output :=
  withNetwork o settings input fun events f =>
    let done := p.run settings f
    let messages := shown o.verbose (events ++ done.events)
    match done.result with
    | .error e => failed messages (.ofPassError e)
    | .ok _ => { output := String.ofList (Listing.write done.network), messages }

def runCheck (o : Options) (settings : Settings) (input : ByteArray) : Output :=
  withNetwork o settings input fun events f =>
    let report := f.report settings.wildcards
    { exitCode := if report.isClean then 0 else 1
      output := report.text ++ "\n"
      messages := shown o.verbose events }

/-- What the program does with its input, or why it fails before it looks there. -/
def job (p : Program) (o : Options) (given : Invocation) : Except Failure (ByteArray → Output) :=
  match p with
  | .pass => do
    let pass ← (passOf o.positional).mapError .usage
    let settings ← o.resolve given.parse? given.environment given.fileAt
    return runPass o settings pass
  | .check => do
    unless o.positional.isEmpty do
      throw (.usage .argumentsGiven)
    let settings ← o.resolve given.parse? given.environment given.fileAt
    return runCheck o settings

/-- What the program does with its input, or its output if it needs no input. -/
def prepare (p : Program) (given : Invocation) : Except Output (ByteArray → Output) := do
  let o ← (Options.parse given.arguments).mapError fun e => failed [] (.usage e)
  if o.help then throw { output := p.helpText }
  (p.job o given).mapError (failed [])

def run (p : Program) (given : Invocation) (input : ByteArray) : Output :=
  match p.prepare given with
  | .error output => output
  | .ok next => next input

end Program

end WildcardNet
