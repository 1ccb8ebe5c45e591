import Heartbeat.Scheduler.Flow

/-!
# Heartbeat.Simulation

Runs of a scheduler, given as a list of steps; every step is answered by a report of what it
returned and of what has happened since the step before.
-/

namespace Heartbeat

/-- What the steps are made on. -/
inductive Facade where
  | scheduler
  /-- The public face of a scheduler, which tells of a stop and hides the number of cycles. -/
  | reporter
  deriving DecidableEq, Repr

inductive ConstructError where
  | settings (e : SettingsError)
  | noRuntime

def ConstructError.message : ConstructError → String
  | .settings e => e.message
  | .noRuntime =>
    "report scheduler needs a tokio runtime: there is no reactor running, " ++
      "must be called from the context of a Tokio 1.x runtime"

inductive Step where
  | start
  | stop
  | refresh
  | sleep (ms : Nat)
  | stopped (ms : Nat)
  | release (r : Reply)
  | drop

structure Report where
  returned : Option Bool
  time : Nat
  /-- `none` once dropped. -/
  lifecycle : Option Lifecycle
  /-- How many cycles are live. -/
  active : Option Nat
  /-- When the sends since the step before were made. -/
  sends : List Nat
  events : List Entry

structure Simulation where
  facade : Facade
  scheduler : Scheduler
  dropped : Bool := false

namespace Simulation

/-- Builds a scheduler from settings; it needs a runtime to run its cycles on. -/
def build (settings : Settings) (facade : Facade) (runtime : Bool) (bench : Bench) :
    Except ConstructError Simulation :=
  match settings.cadence with
  | .error e => .error (.settings e)
  | .ok c =>
    if runtime then .ok { facade, scheduler := { cadence := c, bench } } else .error .noRuntime

/-- The effect of a step and what it returns. -/
def apply (m : Simulation) (step : Step) : Option Bool × Simulation :=
  let keep (s : Scheduler) : Simulation := { m with scheduler := s }
  match step with
  | .start => let (r, s) := m.scheduler.start; (some r, keep s)
  | .refresh => let (r, s) := m.scheduler.refresh; (some r, keep s)
  | .stop =>
    let (r, s) := m.scheduler.stop
    (some r, keep (if r && m.facade = .reporter then s.note .reporterStopped else s))
  | .sleep ms => (none, keep (m.scheduler.sleep ms))
  | .stopped ms => let (r, s) := m.scheduler.awaitDrained ms; (some r, keep s)
  | .release r => (none, keep (m.scheduler.release r))
  | .drop => (none, { m with scheduler := m.scheduler.drop, dropped := true })

def report (before after : Simulation) (returned : Option Bool) : Report :=
  let old := before.scheduler.bench
  let new := after.scheduler.bench
  { returned
    time := new.now
    lifecycle := if after.dropped then none else some after.scheduler.lifecycle
    active :=
      if after.dropped || after.facade = .reporter then none
      else some after.scheduler.live.length
    sends := (new.transport.sends.drop old.transport.sends.length).map (·.time)
    events := Entry.arrange (new.log.take (new.log.length - old.log.length)).reverse }

def step (m : Simulation) (step : Step) : Report × Simulation :=
  let (returned, m') := m.apply step
  (m.report m' returned, m')

def run (m : Simulation) : List Step → List Report × Simulation
  | [] => ([], m)
  | s :: steps =>
    let (report, m) := m.step s
    let (reports, m) := m.run steps
    (report :: reports, m)

end Simulation
end Heartbeat
