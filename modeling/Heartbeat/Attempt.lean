import Heartbeat.Event
import Heartbeat.Transport

/-!
# Heartbeat.Attempt

The sender of one cycle, and the bench that senders share: the clock, the source of descriptors,
the transport and the log.

A tick starts at one instant (`Attempt.start`) and, when it has sent something, ends at a later one
(`Attempt.report`). `Attempt.tick` is a whole tick with nothing else going on.
-/

namespace Heartbeat

structure Bench where
  now : Nat := 0
  /-- What each attempt to build a descriptor gives. -/
  factory : Script (Except ErrorChain Descriptor)
  transport : Transport
  /-- The newest entry comes first. -/
  log : List Entry := []

namespace Bench

def note (b : Bench) (e : Event) : Bench := { b with log := ⟨b.now, e⟩ :: b.log }

/-- Moves the clock forward, never back. -/
def moveTo (b : Bench) (time : Nat) : Bench := { b with now := max b.now time }

/-- Builds a descriptor and sends it on behalf of a cycle: the number of the send, or why there is
no descriptor. -/
def send (b : Bench) (cycle : Nat) : Except Failure Nat × Bench :=
  let b' := { b with factory := b.factory.advance }
  match b.factory.next with
  | .error chain => (.error ⟨.descriptor, chain.message⟩, b')
  | .ok d =>
    (.ok b.transport.sends.length,
      { b'.note (.sending cycle d.agentId) with transport := b.transport.send b.now d })

/-- When and how a wait for the answer to a send ends. -/
def awaits (b : Bench) (send began timeout : Nat) : Nat × Outcome :=
  conclude began timeout (b.transport.settlement? send)

def release (b : Bench) (r : Reply) : Bench :=
  { b with transport := b.transport.release b.now r }

end Bench

structure Attempt where
  cycle : Nat
  kind : CycleKind
  maxTries : MaxTries
  timeout : Nat
  /-- Ticks so far, with any that found the tries used up. -/
  ticks : Nat := 0
  deriving Repr

namespace Attempt

/-- Where the count of ticks stops. -/
def greatestTicks : Nat := UInt64.size - 1

def count (a : Attempt) : Attempt := { a with ticks := min (a.ticks + 1) greatestTicks }

/-- How a tick begins. -/
inductive Start where
  | exhausted
  /-- Settled without being sent. -/
  | settled (o : Outcome)
  /-- Sent, and waiting for the answer. -/
  | sent (send : Nat)

def start (a : Attempt) (b : Bench) : Start × Attempt × Bench :=
  let a := a.count
  if a.maxTries.allows a.ticks then
    match b.send a.cycle with
    | (.error f, b) => (.settled (.failure f), a, b)
    | (.ok send, b) => (.sent send, a, b)
  else (.exhausted, a, b)

/-- What the log says of a tick that ended. -/
def verdict (a : Attempt) : Outcome → Event
  | .success => .delivered a.cycle a.kind a.ticks
  | .failure f => .failed a.cycle a.kind a.ticks f
  | .timeout => .timedOut a.cycle a.kind a.ticks

def report (a : Attempt) (o : Outcome) (b : Bench) : Bench := b.note (a.verdict o)

/-- What a cycle should do after a tick. -/
inductive Tick where
  | retry
  | succeeded
  | exhausted
  deriving DecidableEq, Repr

def Tick.label : Tick → String
  | .retry => "retry"
  | .succeeded => "succeeded"
  | .exhausted => "exhausted"

def Tick.ofOutcome (o : Outcome) : Tick := if o.isSuccess then .succeeded else .retry

def tick (a : Attempt) (b : Bench) : Tick × Attempt × Bench :=
  match a.start b with
  | (.exhausted, a, b) => (.exhausted, a, b)
  | (.settled o, a, b) => (.ofOutcome o, a, a.report o b)
  | (.sent send, a, b) =>
    let (time, o) := b.awaits send b.now a.timeout
    (.ofOutcome o, a, a.report o (b.moveTo time))

/-- A send outside any tick: it is not counted and not reported. -/
def sendOnce (a : Attempt) (b : Bench) : Outcome × Bench :=
  match b.send a.cycle with
  | (.error f, b) => (.failure f, b)
  | (.ok send, b) =>
    let (time, o) := b.awaits send b.now a.timeout
    (o, b.moveTo time)

end Attempt
end Heartbeat
