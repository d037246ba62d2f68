import Nawa.Nawarun.Reload

/-!
# The command line of `nawarun`

`nawarun::parseCommandLine`. The arguments are C strings, the first of which is the program.
-/

namespace Nawa.Nawarun

/-- What ends the program before it starts: the help and the version. -/
inductive Exit where
  | help
  | version

/-- The variables of the loop, with the arguments that a warning has been logged for. -/
structure CommandLine where
  configPath : Option Bytes := none
  overrides : List ((Bytes × Bytes) × Bytes) := []
  noConfigFile : Bool := false
  ignored : List Bytes := []

/-- An override is taken apart at the equals sign and at the colon, without empty parts. -/
def parseOverride (currentArg : Bytes) : Option ((Bytes × Bytes) × Bytes) :=
  if currentArg.take 2 = bytes "--" then
    match utils.splitString (currentArg.drop 2) '='.toUInt8 true with
    | [identifier, value] =>
      match utils.splitString identifier ':'.toUInt8 true with
      | [category, key] => some ((category, key), value)
      | _ => none
    | _ => none
  else none

/-- One turn of the loop. The last argument may be the path of the config file. -/
def CommandLine.parseArgument (line : CommandLine) (currentArg : Bytes) (last : Bool) :
    CommandLine :=
  match parseOverride currentArg with
  | some override => { line with overrides := line.overrides ++ [override] }
  | none =>
    if last then
      if currentArg ≠ bytes "--no-config-file" then { line with configPath := some currentArg }
      else { line with noConfigFile := true }
    else { line with ignored := line.ignored ++ [currentArg] }

def CommandLine.parseArguments : CommandLine → List Bytes → CommandLine
  | line, [] => line
  | line, currentArg :: rest => (line.parseArgument currentArg rest.isEmpty).parseArguments rest

def parseCommandLine (argv : List Bytes) : Except Exit Parameters :=
  let arguments := argv.drop 1
  if arguments.head? = some (bytes "--help") ∨ arguments.head? = some (bytes "-h") then
    .error .help
  else if arguments.head? = some (bytes "--version") ∨ arguments.head? = some (bytes "-v") then
    .error .version
  else
    let line := CommandLine.parseArguments {} arguments
    .ok
      { configFile :=
          if line.configPath = none ∧ line.noConfigFile = false then some (bytes "config.ini")
          else line.configPath
        configOverrides := line.overrides }

end Nawa.Nawarun
