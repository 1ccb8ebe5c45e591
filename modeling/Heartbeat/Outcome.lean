/-!
# Heartbeat.Outcome

What became of one send.
-/

namespace Heartbeat

/-- What stood in the way of a delivery. -/
inductive Obstacle where
  /-- The network or the connection. -/
  | transport
  /-- The collector, which rejected the descriptor. -/
  | application
  /-- An answer that cannot be read. -/
  | malformedResponse
  /-- The descriptor, which could not be built. -/
  | descriptor
  deriving DecidableEq, Repr

def Obstacle.label : Obstacle → String
  | .transport => "TRANSPORT"
  | .application => "APPLICATION"
  | .malformedResponse => "MALFORMED_RESPONSE"
  | .descriptor => "DESCRIPTOR"

structure Failure where
  obstacle : Obstacle
  message : String
  deriving DecidableEq, Repr

def Failure.display (f : Failure) : String := f.obstacle.label ++ ": " ++ f.message

inductive Outcome where
  | success
  | failure (f : Failure)
  /-- Nothing was heard in time. -/
  | timeout
  deriving DecidableEq, Repr

namespace Outcome

def isSuccess : Outcome → Bool
  | success => true
  | _ => false

def fail (o : Obstacle) (message : String) : Outcome := .failure ⟨o, message⟩

end Outcome

/-- Why something failed: the outermost context first, the root cause last. -/
abbrev ErrorChain := List String

def ErrorChain.message (c : ErrorChain) : String := ": ".intercalate c

end Heartbeat
