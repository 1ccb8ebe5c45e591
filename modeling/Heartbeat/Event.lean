import Heartbeat.Cycle
import Heartbeat.Outcome

/-!
# Heartbeat.Event

What the log tells: events, their wording, and entries that say when each happened.
-/

namespace Heartbeat

inductive Lifecycle where
  | created
  | running
  | stopped
  deriving DecidableEq, Repr

def Lifecycle.label : Lifecycle → String
  | .created => "created"
  | .running => "running"
  | .stopped => "stopped"

inductive Level where
  | debug
  | info
  | warn
  | error
  deriving DecidableEq, Repr

def Level.label : Level → String
  | .debug => "DEBUG"
  | .info => "INFO"
  | .warn => "WARN"
  | .error => "ERROR"

inductive Event where
  | armed (cycle : Nat) (kind : CycleKind) (delay : Nat)
  | sending (cycle : Nat) (agentId : String)
  | delivered (cycle : Nat) (kind : CycleKind) (tick : Nat)
  | failed (cycle : Nat) (kind : CycleKind) (tick : Nat) (failure : Failure)
  | timedOut (cycle : Nat) (kind : CycleKind) (tick : Nat)
  | exhausted (cycle : Nat) (kind : CycleKind) (tries : Nat)
  | cancelled (cycle : Nat) (kind : CycleKind)
  /-- A delivery of the main chain came after the stop. -/
  | notRearmed (cycle : Nat)
  | startIgnored (state : Lifecycle)
  | refreshIgnored (state : Lifecycle)
  | stopIgnored (state : Lifecycle)
  | reporterStopped
  deriving DecidableEq, Repr

namespace Event

def level : Event → Level
  | armed .. | sending .. | cancelled .. | notRearmed .. => .debug
  | delivered .. | startIgnored .. | refreshIgnored .. | stopIgnored .. | reporterStopped => .info
  | failed .. | timedOut .. | exhausted .. => .warn

def message : Event → String
  | armed .. => "cycle armed"
  | sending .. => "sending descriptor"
  | delivered .. => "descriptor delivered"
  | failed .. => "descriptor delivery failed"
  | timedOut .. => "timed out waiting for collector response"
  | exhausted .. => "cycle exhausted without delivering"
  | cancelled .. => "cycle cancelled"
  | notRearmed .. => "not arming slow refresh after stop"
  | startIgnored .. => "start ignored"
  | refreshIgnored .. => "refresh ignored"
  | stopIgnored .. => "stop ignored"
  | reporterStopped => "reporter stopped"

/-- The cycle that an event belongs to. -/
def cycle? : Event → Option Nat
  | armed c .. | sending c .. | delivered c .. | failed c .. | timedOut c .. | exhausted c ..
  | cancelled c .. | notRearmed c => some c
  | startIgnored .. | refreshIgnored .. | stopIgnored .. | reporterStopped => none

end Event

inductive Detail where
  | number (n : Nat)
  | text (s : String)
  deriving DecidableEq, Repr

/-- What an event says beside its message. -/
def Event.details : Event → List (String × Detail)
  | armed c kind delay =>
    [("cycle", .number c), ("kind", .text kind.label), ("delay_ms", .number delay)]
  | sending c agentId => [("cycle", .number c), ("agent_id", .text agentId)]
  | delivered c kind tick | timedOut c kind tick =>
    [("cycle", .number c), ("kind", .text kind.label), ("tick", .number tick)]
  | failed c kind tick f =>
    [("cycle", .number c), ("kind", .text kind.label), ("tick", .number tick),
      ("failure", .text f.obstacle.label), ("err", .text f.message)]
  | exhausted c kind tries =>
    [("cycle", .number c), ("kind", .text kind.label), ("tries", .number tries)]
  | cancelled c kind => [("cycle", .number c), ("kind", .text kind.label)]
  | notRearmed c => [("cycle", .number c)]
  | startIgnored state | refreshIgnored state | stopIgnored state =>
    [("state", .text state.label)]
  | reporterStopped => []

structure Entry where
  time : Nat
  event : Event
  deriving DecidableEq, Repr

namespace Entry

/-- Entries of no cycle come before those of any. -/
def rank (e : Entry) : Nat :=
  match e.event.cycle? with
  | none => 0
  | some c => c + 1

def precedes (a b : Entry) : Bool :=
  a.time < b.time || (a.time == b.time && a.rank ≤ b.rank)

/-- By time, at one time by cycle, and within a cycle as they happened. -/
def arrange (entries : List Entry) : List Entry := entries.mergeSort precedes

end Entry
end Heartbeat
