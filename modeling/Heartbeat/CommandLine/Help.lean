import Heartbeat.CommandLine.Parse

/-!
# Heartbeat.CommandLine.Help

The texts that the command line prints instead of a run.
-/

namespace Heartbeat.CommandLine

def programName : String := "herald"

def Command.usage (c : Command) : String :=
  let required := (c.options.filter (·.isRequired)).map (·.display)
  "Usage: " ++ " ".intercalate (programName :: "[OPTIONS]" :: required)

/-- An option and, below it, its explanation with the variable as it is set and the default. -/
def Key.helpLines (env : Environment) (k : Key) : List String :=
  let environment := " [env: " ++ k.envVariable ++ "=" ++ (env k.envVariable).getD "" ++ "]"
  let default := match k.default? with
    | some d => " [default: " ++ d ++ "]"
    | none => ""
  ["      " ++ k.display, "          " ++ k.help ++ environment ++ default]

def Command.helpLines (c : Command) (env : Environment) : List String :=
  [c.about, "", c.usage, "", "Options:"] ++ c.options.flatMap (·.helpLines env) ++
    ["  -h, --help", "          Print help"] ++
    if c.version then ["  -V, --version", "          Print version"] else []

def versionLine : String := programName ++ " " ++ agentVersion

/-- All that an error prints. -/
def ParseError.lines (c : Command) (e : ParseError) : List String :=
  let missing := match e with
    | .requiredMissing ks => ks.map ("  " ++ ·.display)
    | _ => []
  e.headline :: missing ++ ["", c.usage, "", "For more information, try '--help'."]

end Heartbeat.CommandLine
