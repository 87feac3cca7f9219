import WildcardNet.Failure
import WildcardNet.Text.Numeral
/-!
# Command-line options

Options that take a value are written with the value as the next argument or, if the name is long,
after an equals sign. A later value replaces an earlier one. Arguments that do not look like options
are kept in order. Labels given by options take precedence over those of a settings file.
-/

namespace WildcardNet

structure Options where
  configPath : Option String := none
  identity : Option Label := none
  other : Option Label := none
  alphabet : Option (List Label) := none
  separator : Option Label := none
  hardEpsilon : Option Label := none
  verbose : Bool := false
  help : Bool := false
  positional : List String := []
deriving DecidableEq, Repr

/-- An option that takes a value. -/
inductive ValueOption
  | config
  | identity
  | other
  | alphabet
  | separator
  | hardEpsilon
deriving DecidableEq, Repr

inductive Flag
  | verbose
  | help
deriving DecidableEq, Repr

def ValueOption.ofName? : String → Option ValueOption
  | "-c" | "--config" => some .config
  | "--other-id" => some .identity
  | "--other-nonid" => some .other
  | "--alphabet" => some .alphabet
  | "--separator" => some .separator
  | "--hard-epsilon" => some .hardEpsilon
  | _ => none

def Flag.ofName? : String → Option Flag
  | "-v" | "--verbose" => some .verbose
  | "-h" | "--help" => some .help
  | _ => none

/-- What an argument says: the name and the value after an equals sign if the name is long, and
otherwise the argument itself. -/
def splitArgument (arg : String) : String × Option String :=
  let name := arg.toList.takeWhile (· ≠ '=')
  match arg.toList.dropWhile (· ≠ '=') with
  | [] => (arg, none)
  | _ :: value =>
    if "--".toList.isPrefixOf name then (String.ofList name, some (String.ofList value))
    else (arg, none)

/-- A hyphen with something after it. -/
def looksLikeOption (name : String) : Bool :=
  match name.toList with
  | '-' :: _ :: _ => true
  | _ => false

def readLabelValue (name : String) (text : List Char) : Except UsageError Label :=
  match Text.readUInt32? text with
  | some label => .ok label
  | none => .error (.badLabel name text)

/-- Labels between commas. Blanks around them and empty places between commas do not count. -/
def readAlphabetValue (name : String) (text : List Char) : Except UsageError (List Label) :=
  (((text.splitOn ',').map Text.trim).filter (· ≠ [])).mapM (readLabelValue name)

namespace Options

def setFlag (o : Options) : Flag → Options
  | .verbose => { o with verbose := true }
  | .help => { o with help := true }

/-- Sets the option, which was called by `name`. -/
def setValue (o : Options) (option : ValueOption) (name value : String) :
    Except UsageError Options :=
  match option with
  | .config => .ok { o with configPath := some value }
  | .identity => do return { o with identity := some (← readLabelValue name value.toList) }
  | .other => do return { o with other := some (← readLabelValue name value.toList) }
  | .alphabet => do return { o with alphabet := some (← readAlphabetValue name value.toList) }
  | .separator => do return { o with separator := some (← readLabelValue name value.toList) }
  | .hardEpsilon => do return { o with hardEpsilon := some (← readLabelValue name value.toList) }

/-- Reads arguments on top of the options read so far. -/
def parseFrom (o : Options) (args : List String) : Except UsageError Options :=
  match args with
  | [] => .ok o
  | arg :: rest =>
    let (name, inline?) := splitArgument arg
    match ValueOption.ofName? name with
    | some option =>
      match inline?, rest with
      | some value, rest => do (← o.setValue option name value).parseFrom rest
      | none, value :: rest => do (← o.setValue option name value).parseFrom rest
      | none, [] => .error (.valueMissing name)
    | none =>
      match Flag.ofName? name with
      | some flag => (o.setFlag flag).parseFrom rest
      | none =>
        if looksLikeOption name then .error (.unknownOption name)
        else { o with positional := o.positional ++ [arg] }.parseFrom rest
termination_by structural args

def parse (args : List String) : Except UsageError Options := parseFrom {} args

/-- The labels of the rule: both or none. -/
def mergeRule (separator hardEpsilon : Option Label) : Except UsageError (Option RuleMarks) :=
  match separator, hardEpsilon with
  | some s, some h => .ok (some ⟨s, h⟩)
  | none, none => .ok none
  | _, _ => .error .halfRule

/-- The settings given by options and file together, field by field, before any check. -/
def merge (o : Options) (file : Option Settings) : Except UsageError Settings :=
  match o.identity <|> file.map (·.wildcards.identity),
      o.other <|> file.map (·.wildcards.other) with
  | some identity, some other => do
    let fileRule := file.bind (·.rule)
    let rule ← mergeRule (o.separator <|> fileRule.map (·.separator))
      (o.hardEpsilon <|> fileRule.map (·.hardEpsilon))
    let alphabet := (o.alphabet <|> file.map (·.alphabet)).getD []
    return ⟨⟨identity, other⟩, rule, alphabet⟩
  | _, _ => .error .wildcardsMissing

/-- Merges and checks. -/
def settings (o : Options) (file : Option Settings) : Except Failure Settings := do
  let c ← (o.merge file).mapError .usage
  c.check.mapError .label
  return c

/-- Reads the settings file at a path, given how text is read as settings and what files there
are. -/
def readSettings (parse? : List Char → Option Settings)
    (fileAt : String → Except FileError ByteArray) (path : String) : Except Failure Settings := do
  let bytes ← (fileAt path).mapError (.configRead path)
  match String.fromUTF8? bytes with
  | none => .error (.configRead path .notText)
  | some text =>
    match parse? text.toList with
    | none => .error (.configParse path)
    | some c => .ok c

/-- The path of the settings file, if there is one. -/
def settingsPath (o : Options) (environment : Option String) : Option String :=
  o.configPath <|> environment

/-- The settings in force: those of the file named by an option or else by the environment, if any,
with the labels given by options in their place. -/
def resolve (o : Options) (parse? : List Char → Option Settings) (environment : Option String)
    (fileAt : String → Except FileError ByteArray) : Except Failure Settings := do
  match o.settingsPath environment with
  | none => o.settings none
  | some path => o.settings (some (← readSettings parse? fileAt path))

end Options

end WildcardNet
