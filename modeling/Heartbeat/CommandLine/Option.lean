import Heartbeat.Cadence
import Heartbeat.Collector
import Heartbeat.Identity
import Heartbeat.Text.Integer

/-!
# Heartbeat.CommandLine.Option

The options of the command line: how each is spelled, what values it takes, and the environment
variable that stands in for it.
-/

namespace Heartbeat.CommandLine

inductive ValueKind where
  | text
  /-- A natural number below `2 ^ 64`. -/
  | natural
  /-- A natural number below `2 ^ 32`. -/
  | count
  | port
  | address
  /-- On if the option is given; its variable says `true` or `false`. -/
  | switch
  deriving DecidableEq, Repr

@[reducible] def ValueKind.Value : ValueKind → Type
  | .text => String
  | .natural | .count => Nat
  | .port => UInt16
  | .address => Address
  | .switch => Bool

/-- Why a text is no value of its kind. -/
inductive ValueFault where
  | integer (f : IntegerFault)
  | outside (n : Int) (greatest : Nat)
  | address
  /-- Nothing, where a word is due. -/
  | absent
  /-- Not one of the words. -/
  | otherWord
  deriving DecidableEq, Repr

/-- The reason as it is told, if one is. -/
def ValueFault.reason? : ValueFault → Option String
  | .integer f => some f.message
  | .outside n greatest => some (toString n ++ " is not in 0..=" ++ toString greatest)
  | .address => some Address.syntaxMessage
  | .absent | .otherWord => none

/-- A natural number up to `greatest`, read as a signed integer of 64 bits. -/
def readRanged (greatest : Nat) (s : String) : Except ValueFault Nat :=
  match readInteger (UInt64.size / 2) (UInt64.size / 2 - 1) s with
  | .error f => .error (.integer f)
  | .ok n =>
    if 0 ≤ n ∧ n ≤ greatest then .ok n.toNat else .error (.outside n greatest)

def ValueKind.read : (k : ValueKind) → String → Except ValueFault k.Value
  | .text, s => .ok s
  | .natural, s =>
    match readInteger 0 (UInt64.size - 1) s with
    | .error f => .error (.integer f)
    | .ok n => .ok n.toNat
  | .count, s => readRanged (UInt32.size - 1) s
  | .port, s => (readRanged (UInt16.size - 1) s).map .ofNat
  | .address, s =>
    match Address.ofText? s with
    | some a => .ok a
    | none => .error .address
  | .switch, s =>
    if s = "true" then .ok true
    else if s = "false" then .ok false
    else if s.isEmpty then .error .absent
    else .error .otherWord

inductive Key where
  | collectorUrl
  | collectorToken
  | httpTimeout
  | agentId
  | applicationName
  | agentIp
  | port
  | container
  | sendInterval
  | refreshInterval
  | maxTries
  | responseTimeout
  | logLevel
  | logFormat
  deriving DecidableEq, Repr

def defaultLogLevel : String := "info"

def defaultLogFormat : String := "text"

namespace Key

@[reducible] def kind : Key → ValueKind
  | collectorUrl | collectorToken | agentId | applicationName | logLevel | logFormat => .text
  | httpTimeout | sendInterval | refreshInterval | responseTimeout => .natural
  | maxTries => .count
  | agentIp => .address
  | port => .port
  | container => .switch

@[reducible] def Value (k : Key) : Type := k.kind.Value

/-- What an option is called behind its two dashes. -/
def name : Key → String
  | collectorUrl => "collector-url"
  | collectorToken => "collector-token"
  | httpTimeout => "http-timeout-ms"
  | agentId => "agent-id"
  | applicationName => "application-name"
  | agentIp => "agent-ip"
  | port => "port"
  | container => "container"
  | sendInterval => "send-interval-ms"
  | refreshInterval => "refresh-interval-ms"
  | maxTries => "max-try-per-attempt"
  | responseTimeout => "response-timeout-ms"
  | logLevel => "log-level"
  | logFormat => "log-format"

/-- What stands for its value where the option is named, and behind `HERALD_` in its variable. -/
def valueName : Key → String
  | collectorUrl => "COLLECTOR_URL"
  | collectorToken => "COLLECTOR_TOKEN"
  | httpTimeout => "HTTP_TIMEOUT_MS"
  | agentId => "AGENT_ID"
  | applicationName => "APPLICATION_NAME"
  | agentIp => "AGENT_IP"
  | port => "PORTS"
  | container => "CONTAINER"
  | sendInterval => "SEND_INTERVAL_MS"
  | refreshInterval => "REFRESH_INTERVAL_MS"
  | maxTries => "MAX_TRY_PER_ATTEMPT"
  | responseTimeout => "RESPONSE_TIMEOUT_MS"
  | logLevel => "LOG_LEVEL"
  | logFormat => "LOG_FORMAT"

/-- The environment variable that stands in for an option that is not given. -/
def envVariable (k : Key) : String := "HERALD_" ++ k.valueName

/-- How messages name the option. -/
def display (k : Key) : String :=
  if k.kind = .switch then "--" ++ k.name else "--" ++ k.name ++ " <" ++ k.valueName ++ ">"

def isRequired : Key → Bool
  | collectorUrl | applicationName => true
  | _ => false

/-- Whether the option may be given again and one text may hold several values, with commas. -/
def isList : Key → Bool
  | port => true
  | _ => false

/-- The text of its value when it is not given at all. -/
def default? : Key → Option String
  | httpTimeout => some (toString ({ url := "" : Collector }).httpTimeout)
  | sendInterval => some (toString ({} : Settings).sendInterval)
  | refreshInterval => some (toString ({} : Settings).refreshInterval)
  | maxTries => some (toString ({} : Settings).maxTries)
  | responseTimeout => some (toString ({} : Settings).responseTimeout)
  | logLevel => some defaultLogLevel
  | logFormat => some defaultLogFormat
  | _ => none

def help : Key → String
  | collectorUrl => "Base URL of the collector, e.g. `http://collector:9991`"
  | collectorToken => "Bearer token for the collector. If unset, no auth header is sent"
  | httpTimeout => "HTTP request timeout in milliseconds"
  | agentId => "Agent identifier. A random one is generated if unset"
  | applicationName => "Name of the application this agent belongs to"
  | agentIp => "Override the reported IP address instead of probing interfaces"
  | port => "Ports the application listens on (repeatable)"
  | container => "Report the agent as running inside a container"
  | sendInterval => "Spacing between ticks within one cycle, in milliseconds"
  | refreshInterval => "Delay before each slow-refresh cycle, in milliseconds"
  | maxTries => "Max ticks per slow-refresh or ad-hoc cycle"
  | responseTimeout => "How long one tick waits for the collector's response, in milliseconds"
  | logLevel => "Log filter directive"
  | logFormat => "Log output format: \"text\" or \"json\""

end Key

structure Command where
  /-- What the command is for. -/
  about : String
  /-- In the order in which they are shown. -/
  options : List Key
  /-- Whether it tells its version. -/
  version : Bool

namespace Command

/-- The options that configure reporting. -/
def reporting : Command where
  about := "Reporting cadence knobs"
  options := [.collectorUrl, .collectorToken, .httpTimeout, .agentId, .applicationName, .agentIp,
    .port, .container, .sendInterval, .refreshInterval, .maxTries, .responseTimeout]
  version := false

/-- The whole program: reporting and its log. -/
def agent : Command where
  about := "Report this agent's descriptor to a collector and keep it fresh"
  options := reporting.options ++ [.logLevel, .logFormat]
  version := true

def find? (c : Command) (name : String) : Option Key := c.options.find? (·.name = name)

end Command
end Heartbeat.CommandLine
