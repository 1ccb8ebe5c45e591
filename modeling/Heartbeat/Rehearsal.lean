import Heartbeat.Attempt

/-!
# Heartbeat.Rehearsal

Attempts driven by hand, without a scheduler: they share a bench, and every step is answered by a
report.
-/

namespace Heartbeat

structure Rehearsal where
  bench : Bench
  attempts : List Attempt

namespace Rehearsal

/-- A number of like attempts on consecutive cycles. -/
def build (bench : Bench) (first : Attempt) (count : Nat) : Rehearsal where
  bench := bench
  attempts := (List.range count).map fun i => { first with cycle := first.cycle + i }

inductive Step where
  | tick (attempt : Nat)
  | sendOnce (attempt : Nat)
  | sleep (ms : Nat)
  | release (r : Reply)

inductive Returned where
  | nothing
  | ticked (t : Attempt.Tick)
  | sent (o : Outcome)

structure Report where
  returned : Returned
  time : Nat
  /-- The count of ticks of every attempt. -/
  ticks : List Nat
  /-- How many sends there have been in all. -/
  sends : Nat
  events : List Entry

def apply (r : Rehearsal) : Step → Returned × Rehearsal
  | .tick i =>
    match r.attempts[i]? with
    | none => (.nothing, r)
    | some a =>
      let (t, a, b) := a.tick r.bench
      (.ticked t, { bench := b, attempts := r.attempts.set i a })
  | .sendOnce i =>
    match r.attempts[i]? with
    | none => (.nothing, r)
    | some a =>
      let (o, b) := a.sendOnce r.bench
      (.sent o, { r with bench := b })
  | .sleep ms => (.nothing, { r with bench := r.bench.moveTo (r.bench.now + ms) })
  | .release reply => (.nothing, { r with bench := r.bench.release reply })

def step (r : Rehearsal) (s : Step) : Report × Rehearsal :=
  let (returned, r') := r.apply s
  let new := r'.bench
  ({ returned
     time := new.now
     ticks := r'.attempts.map (·.ticks)
     sends := new.transport.sends.length
     events := Entry.arrange (new.log.take (new.log.length - r.bench.log.length)).reverse }, r')

def run (r : Rehearsal) : List Step → List Report × Rehearsal
  | [] => ([], r)
  | s :: steps =>
    let (report, r) := r.step s
    let (reports, r) := r.run steps
    (report :: reports, r)

end Rehearsal
end Heartbeat
