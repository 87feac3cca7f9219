import WildcardNet.Json.Format
import WildcardNet.Program
/-!
# Running the programs

The executable reports on wildcards when it is called by a name that ends in `check`, and runs a
pass when it is called by any other name. Settings files are in JSON.
-/

namespace WildcardNet.Main

/-- The variable that names a settings file. -/
def settingsVariable : String := "WILDFST_CONFIG"

/-- The reason behind an error code, whichever sign it comes with. -/
def fileError (e : IO.Error) : FileError :=
  match e with
  | .noFileOrDirectory .. => .missing
  | .inappropriateType _ code _ =>
    if code = 20 ∨ code = -20 then .notADirectory
    else if code = 21 ∨ code = -21 then .isADirectory
    else .system (toString e)
  | _ => .system (toString e)

def fileAt (path : String) : IO (Except FileError ByteArray) := do
  try
    return .ok (← IO.FS.readBinFile path)
  catch e =>
    return .error (fileError e)

/-- Reads the settings file, if there is one, before the program asks for it. -/
def invocation (args : List String) : IO Invocation := do
  let environment ← IO.getEnv settingsVariable
  let path := match Options.parse args with
    | .ok o => o.settingsPath environment
    | .error _ => none
  let file ← match path with
    | some path => fileAt path
    | none => pure (.error .missing)
  return {
    arguments := args
    environment
    fileAt := fun _ => file
    parse? := Settings.parse? Json.format }

def program : IO Program := do
  let path ← IO.appPath
  return if path.toString.endsWith "check" then .check else .pass

end WildcardNet.Main

open WildcardNet in
def main (args : List String) : IO UInt32 := do
  let output ← match (← Main.program).prepare (← Main.invocation args) with
    | .error output => pure output
    | .ok next => pure (next (← (← IO.getStdin).readBinToEnd))
  (← IO.getStderr).putStr (String.join (output.messages.map (· ++ "\n")))
  (← IO.getStdout).putStr output.output
  return output.exitCode
