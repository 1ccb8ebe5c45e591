import Heartbeat.Scheduler

/-!
# Heartbeat.Scheduler.Flow

Letting time pass. The cycle that is ready first is polled at the time it is ready, again and
again, until none is ready by the target; of cycles ready at one time the one armed first goes
first.

Every poll takes work away: deadlines move on by at least a millisecond, so `work` bounds the
number of polls before the target and no run can stay at one instant for ever.
-/

namespace Heartbeat

/-- The place of the first item with the least measure, and that measure. -/
def leastAt {α : Type} (measure : α → Nat) : List α → Option (Nat × Nat)
  | [] => none
  | x :: xs =>
    match leastAt measure xs with
    | none => some (0, measure x)
    | some (i, n) => if measure x ≤ n then some (0, measure x) else some (i + 1, n)

namespace Scheduler

/-- A bound on the polls of one cycle and of the cycles that it leads to, up to the target. -/
def weight (target : Nat) (c : LiveCycle) : Nat :=
  match c.phase with
  | .idle deadline => 2 * (target + 1 - deadline) + 1
  | .waiting deadline .. => 2 * (target + 1 - deadline)

def work (s : Scheduler) (target : Nat) : Nat := s.live.foldr (fun c w => weight target c + w) 0

/-- The place of the cycle to poll next, and when, if one is ready by the target. -/
def nextReady (s : Scheduler) (target : Nat) : Option (Nat × Nat) :=
  (leastAt s.wakeTime s.live).filter fun (_, time) => time ≤ target

/-- Moves the clock to a time, or leaves it if it is past that, and polls the cycle at a place. -/
def pollAt (s : Scheduler) (i time : Nat) : Scheduler :=
  { s with bench := s.bench.moveTo time }.poll i

/-- Polls what is ready by the target, `fuel` times at most, unless `halt` holds before. -/
def runFor (halt : Scheduler → Bool) (target : Nat) : Nat → Scheduler → Scheduler
  | 0, s => s
  | fuel + 1, s =>
    if halt s then s
    else
      match s.nextReady target with
      | none => s
      | some (i, time) => runFor halt target fuel (s.pollAt i time)

/-- Polls all that is ready by the target, or until `halt` holds. -/
def runUntil (halt : Scheduler → Bool) (target : Nat) (s : Scheduler) : Scheduler :=
  runFor halt target (s.work target) s

/-- Lets time pass; afterwards nothing is ready. -/
def sleep (s : Scheduler) (ms : Nat) : Scheduler :=
  let target := s.bench.now + ms
  let s := s.runUntil (fun _ => false) target
  { s with bench := s.bench.moveTo target }

/-- Waits at most `ms` for the scheduler to be drained, and tells if it is in time: at once, or
before the wait is over. Time stops when it is. -/
def awaitDrained (s : Scheduler) (ms : Nat) : Bool × Scheduler :=
  if s.isDrained then (true, s)
  else
    let target := s.bench.now + ms
    let s := s.runUntil isDrained target
    if s.isDrained ∧ s.bench.now < target then (true, s)
    else (false, { s with bench := s.bench.moveTo target })

end Scheduler
end Heartbeat
