import Heartbeat.Launch

/-!
# Heartbeat.Main

The command line: prints what a launch says and exits with its code.
-/

namespace Heartbeat

open CommandLine

/-- The variables of the program's options, as they are set. -/
def readEnvironment : IO Environment := do
  let set ← Command.agent.options.filterMapM fun k => do
    return (← IO.getEnv k.envVariable).map (k.envVariable, ·)
  return fun name => List.lookup name set

def launch (args : List String) : IO UInt32 := do
  match Launch.ofCommandLine args (← readEnvironment) with
  | .exits code output errors =>
    for o in output do IO.println o.text
    for e in errors do IO.eprintln e
    return code.toUInt32
  | .runs a =>
    IO.println (LogRecord.text ⟨.info, "herald starting collector=" ++ a.endpoint⟩)
    return 0

end Heartbeat

def main (args : List String) : IO UInt32 := Heartbeat.launch args
