import Heartbeat.Cadence

/-!
# Heartbeat.Cycle

A cycle is a run of ticks that ends with the first delivery. There are three kinds:

* fast bring-up — from now on and as often as it takes;
* slow refresh  — after the refresh interval, a limited number of times;
* ad hoc        — from now on, a limited number of times.

The first two form the main chain: each delivery arms the next slow refresh.
-/

namespace Heartbeat

inductive CycleKind where
  | fastBringup
  | slowRefresh
  | adHoc
  deriving DecidableEq, Repr

def CycleKind.label : CycleKind → String
  | .fastBringup => "fast_bringup"
  | .slowRefresh => "slow_refresh"
  | .adHoc => "ad_hoc"

/-- How many ticks of a cycle may send. -/
inductive MaxTries where
  | unbounded
  | limited (n : Nat) (pos : 0 < n)
  deriving Repr

/-- Whether the given tick, the first being 1, may send. -/
def MaxTries.allows : MaxTries → Nat → Bool
  | .unbounded, _ => true
  | .limited n _, tick => tick ≤ n

structure AttemptPolicy where
  maxTries : MaxTries
  period : Nat
  initialDelay : Nat
  period_pos : 0 < period
  deriving Repr

/-- What a delivery leads to. -/
inductive OnSuccess where
  | armSlowRefresh
  | nothing
  deriving DecidableEq, Repr

def OnSuccess.label : OnSuccess → String
  | .armSlowRefresh => "arm_slow_refresh"
  | .nothing => "nothing"

structure Cycle where
  kind : CycleKind
  policy : AttemptPolicy
  onSuccess : OnSuccess
  deriving Repr

namespace Cycle

def fastBringup (c : Cadence) : Cycle where
  kind := .fastBringup
  policy := ⟨.unbounded, c.sendInterval, 0, c.sendInterval_pos⟩
  onSuccess := .armSlowRefresh

def slowRefresh (c : Cadence) : Cycle where
  kind := .slowRefresh
  policy := ⟨.limited c.maxTries c.maxTries_pos, c.sendInterval, c.refreshInterval,
    c.sendInterval_pos⟩
  onSuccess := .armSlowRefresh

def adHoc (c : Cadence) : Cycle where
  kind := .adHoc
  policy := ⟨.limited c.maxTries c.maxTries_pos, c.sendInterval, 0, c.sendInterval_pos⟩
  onSuccess := .nothing

end Cycle

/-- How late a tick may begin without leaving its grid of deadlines. -/
def lateTolerance : Nat := 5

/-- The deadline that follows a tick due at `deadline` and begun `late` after it. A tick that is
too late skips the deadlines it has missed. -/
def nextDeadline (deadline late period : Nat) : Nat :=
  if late ≤ lateTolerance then deadline + period
  else deadline + late + period - late % period

theorem deadline_lt_nextDeadline {period : Nat} (deadline late : Nat) (pos : 0 < period) :
    deadline < nextDeadline deadline late period := by
  have := Nat.mod_le late period
  unfold nextDeadline
  split <;> omega

end Heartbeat
