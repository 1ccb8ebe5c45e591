import Heartbeat.CommandLine.Help
import Heartbeat.Json.Print
import Heartbeat.LogFilter

/-!
# Heartbeat.Launch

What a command line leads to: an exit, with what is printed before it, or a reporter that runs.

The checks come in this order, and the first that fails decides: the command line (exit 2, or 0 if
it only asks for a text), the cadence (exit 2), and, from here on with a log, the identity and the
collector (exit 1).
-/

namespace Heartbeat

structure LogRecord where
  level : Level
  message : String
  deriving DecidableEq, Repr

namespace LogRecord

/-- The part of the program that log records come from. -/
def target : String := CommandLine.programName

def text (r : LogRecord) : String :=
  String.ofList (List.replicate (5 - r.level.label.length) ' ') ++ r.level.label ++ " " ++ target ++
    ": " ++ r.message

def json (r : LogRecord) : String :=
  let message := Json.printText r.message
  String.ofList <| Json.printObject
    [("level", Json.printText r.level.label),
      ("fields", Json.printObject [("message", message)]),
      ("target", Json.printText target)]

end LogRecord

inductive LogFormat where
  | text
  | json
  deriving DecidableEq, Repr

/-- Only the word `json` asks for JSON. -/
def LogFormat.ofText (s : String) : LogFormat := if s = "json" then .json else .text

inductive Output where
  | line (text : String)
  | record (r : LogRecord) (format : LogFormat)
  deriving DecidableEq, Repr

def Output.text : Output → String
  | .line text => text
  | .record r .text => r.text
  | .record r .json => r.json

inductive FatalError where
  | identity (e : IdentityError)
  | collector (e : CollectorError)
  deriving DecidableEq, Repr

def FatalError.message : FatalError → String
  | .identity e => e.message
  | .collector e => e.message

/-- What a reporter that runs was started with. -/
structure Assignment where
  cadence : Cadence
  identity : Identity
  collector : Collector
  endpoint : String

inductive Launch where
  | exits (code : Nat) (output : List Output) (errors : List String)
  | runs (a : Assignment)

namespace CommandLine.Config

/-- The address to post to, once the identity and the collector are found to be in order. -/
def endpoint (c : Config) : Except FatalError String :=
  match c.identity.check with
  | .error e => .error (.identity e)
  | .ok () =>
    match c.collector.endpoint with
    | .error e => .error (.collector e)
    | .ok url => .ok url

/-- The record of a fatal error, if the log shows it. -/
def fatalOutput (c : Config) (e : FatalError) : List Output :=
  if (LogFilter.ofText c.logLevel).shows .error LogRecord.target ["message"] then
    [.record ⟨.error, "fatal: " ++ e.message⟩ (.ofText c.logFormat)]
  else []

end CommandLine.Config

namespace Launch

open CommandLine

def ofConfig (c : Config) : Launch :=
  match c.settings.cadence with
  | .error e => .exits 2 [] ["error: " ++ e.message]
  | .ok cadence =>
    match c.endpoint with
    | .error e => .exits 1 (c.fatalOutput e) []
    | .ok endpoint => .runs ⟨cadence, c.identity, c.collector, endpoint⟩

def ofCommandLine (args : List String) (env : Environment) : Launch :=
  match Command.agent.parse args env with
  | .error .help => .exits 0 ((Command.agent.helpLines env).map .line) []
  | .error .version => .exits 0 [.line versionLine] []
  | .error e => .exits 2 [] (e.lines .agent)
  | .ok c => ofConfig c

end Launch
end Heartbeat
