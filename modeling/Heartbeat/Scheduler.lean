import Heartbeat.Attempt

/-!
# Heartbeat.Scheduler

The cycles of one agent and the calls that start, refresh and stop them.

A live cycle is idle until its next deadline or waits for the answer to its last send. What it does
next happens in one step, `Scheduler.poll`, for which it is ready from `Scheduler.wakeTime` on. The
calls themselves only arm cycles and change the state; cycles run when time is let pass.
-/

namespace Heartbeat

inductive Phase where
  /-- The next tick is due at the deadline. -/
  | idle (deadline : Nat)
  /-- The tick that was due at the deadline began `late` after it and waits for a send. -/
  | waiting (deadline late send : Nat)
  deriving DecidableEq, Repr

structure LiveCycle where
  attempt : Attempt
  period : Nat
  period_pos : 0 < period
  onSuccess : OnSuccess
  phase : Phase
  deriving Repr

structure Scheduler where
  cadence : Cadence
  bench : Bench
  lifecycle : Lifecycle := .created
  /-- The number of the cycle armed next. -/
  nextCycle : Nat := 1
  /-- The live cycles in the order in which they were armed. -/
  live : List LiveCycle := []

namespace Scheduler

def note (s : Scheduler) (e : Event) : Scheduler := { s with bench := s.bench.note e }

def isStopped (s : Scheduler) : Bool := s.lifecycle = .stopped

/-- Stopped, with no cycle left. -/
def isDrained (s : Scheduler) : Bool := s.isStopped && s.live.isEmpty

/-- The cycle that arming adds, with its first tick still ahead. -/
def armed (s : Scheduler) (c : Cycle) : LiveCycle where
  attempt :=
    { cycle := s.nextCycle
      kind := c.kind
      maxTries := c.policy.maxTries
      timeout := s.cadence.responseTimeout }
  period := c.policy.period
  period_pos := c.policy.period_pos
  onSuccess := c.onSuccess
  phase := .idle (s.bench.now + c.policy.initialDelay)

def arm (s : Scheduler) (c : Cycle) : Scheduler :=
  { s.note (.armed s.nextCycle c.kind c.policy.initialDelay) with
    nextCycle := s.nextCycle + 1
    live := s.live ++ [s.armed c] }

/-! ## Calls -/

/-- Starts the main chain; only a scheduler just created does. -/
def start (s : Scheduler) : Bool × Scheduler :=
  if s.lifecycle = .created then
    (true, { s with lifecycle := .running }.arm (.fastBringup s.cadence))
  else (false, s.note (.startIgnored s.lifecycle))

/-- Arms an ad hoc cycle; only a running scheduler does. -/
def refresh (s : Scheduler) : Bool × Scheduler :=
  if s.lifecycle = .running then (true, s.arm (.adHoc s.cadence))
  else (false, s.note (.refreshIgnored s.lifecycle))

def shutDown (s : Scheduler) : Scheduler := { s with lifecycle := .stopped }

/-- Stops for good; only a running scheduler does. A tick under way still ends by itself. -/
def stop (s : Scheduler) : Bool × Scheduler :=
  if s.lifecycle = .running then (true, s.shutDown)
  else (false, s.note (.stopIgnored s.lifecycle))

/-- What becomes of a scheduler that is given up: a running one stops. -/
def drop (s : Scheduler) : Scheduler :=
  if s.lifecycle = .running then s.shutDown else s

def release (s : Scheduler) (r : Reply) : Scheduler := { s with bench := s.bench.release r }

/-! ## Steps of a cycle -/

/-- When and how the wait of a tick ends that was due at `deadline`. -/
def ending (s : Scheduler) (c : LiveCycle) (deadline late send : Nat) : Nat × Outcome :=
  s.bench.awaits send (deadline + late) c.attempt.timeout

/-- From when on a cycle can be polled. A stop wakes the idle ones. -/
def wakeTime (s : Scheduler) (c : LiveCycle) : Nat :=
  match c.phase with
  | .idle deadline => if s.isStopped then 0 else deadline
  | .waiting deadline late send => (s.ending c deadline late send).1

def remove (s : Scheduler) (i : Nat) : Scheduler := { s with live := s.live.eraseIdx i }

def replace (s : Scheduler) (i : Nat) (c : LiveCycle) : Scheduler :=
  { s with live := s.live.set i c }

/-- What the delivery of a cycle leads to. -/
def complete (s : Scheduler) (cycle : Nat) : OnSuccess → Scheduler
  | .nothing => s
  | .armSlowRefresh =>
    if s.lifecycle = .running then s.arm (.slowRefresh s.cadence)
    else s.note (.notRearmed cycle)

/-- Ends the tick of cycle `c`, at place `i`, that was due at `deadline` and began `late`. -/
def endTick (s : Scheduler) (i : Nat) (c : LiveCycle) (deadline late : Nat) (o : Outcome) :
    Scheduler :=
  let s := { s with bench := c.attempt.report o s.bench }
  if o.isSuccess then (s.remove i).complete c.attempt.cycle c.onSuccess
  else s.replace i { c with phase := .idle (nextDeadline deadline late c.period) }

/-- Begins the tick of cycle `c`, at place `i`, that was due at `deadline`. -/
def beginTick (s : Scheduler) (i : Nat) (c : LiveCycle) (deadline : Nat) : Scheduler :=
  let late := s.bench.now - deadline
  match c.attempt.start s.bench with
  | (.exhausted, a, b) =>
    { s with bench := b.note (.exhausted a.cycle a.kind (a.ticks - 1)) }.remove i
  | (.settled o, a, b) => { s with bench := b }.endTick i { c with attempt := a } deadline late o
  | (.sent send, a, b) =>
    { s with bench := b }.replace i { c with attempt := a, phase := .waiting deadline late send }

/-- The next step of the cycle at place `i`, which is ready for it. A stop is seen before a tick
that is due. -/
def poll (s : Scheduler) (i : Nat) : Scheduler :=
  match s.live[i]? with
  | none => s
  | some c =>
    match c.phase with
    | .idle deadline =>
      if s.isStopped then (s.note (.cancelled c.attempt.cycle c.attempt.kind)).remove i
      else s.beginTick i c deadline
    | .waiting deadline late send =>
      s.endTick i c deadline late (s.ending c deadline late send).2

end Scheduler
end Heartbeat
