/-!
# Heartbeat.Collector

The collector that descriptors are posted to, as the operator names it.
-/

namespace Heartbeat

structure Collector where
  /-- Base address, with or without slashes at its end. -/
  url : String
  /-- Sent as a bearer token if there is one. -/
  token : Option String := none
  /-- Milliseconds that a request may take. -/
  httpTimeout : Nat := 10000
  deriving DecidableEq, Repr

/-- Where under its base address a collector takes descriptors. -/
def agentInfoPath : String := "/api/v1/agent-info"

inductive CollectorError where
  | urlEmpty
  deriving DecidableEq, Repr

def CollectorError.message : CollectorError → String
  | .urlEmpty => "collector url must not be empty"

namespace Collector

/-- The base address without the slashes at its end. -/
def base (c : Collector) : List Char := (c.url.toList.reverse.dropWhile (· == '/')).reverse

/-- The address that descriptors are posted to. -/
def endpoint (c : Collector) : Except CollectorError String :=
  if c.base.isEmpty then .error .urlEmpty else .ok (String.ofList c.base ++ agentInfoPath)

end Collector
end Heartbeat
