import Heartbeat.Proofs.Draining

/-!
# Heartbeat.Proofs.Lifecycles

How runs move the lifecycle.

* `Lifecycle.after` — how a step changes it, and `Lifecycle.Next`, the ways in which it moves.
* `Call.isRefused`  — where a call is refused.
* `Lifecycle.ahead` — the calls that are still to change it.
* `Runs.accepted`, `Runs.next` — a run accepts calls in that order, and reports the moves.
-/

namespace Heartbeat

namespace Lifecycle

/-- How a step changes the lifecycle. -/
def after (state : Lifecycle) : Step → Lifecycle
  | .start => if state = .created then .running else state
  | .stop | .drop => if state = .running then .stopped else state
  | .refresh | .sleep _ | .stopped _ | .release _ => state

/-- The ways in which the lifecycle moves. -/
inductive Next : Lifecycle → Lifecycle → Prop
  | stays (state : Lifecycle) : Next state state
  | starts : Next .created .running
  | stops : Next .running .stopped

theorem next_after (state : Lifecycle) (step : Step) : state.Next (state.after step) := by
  cases step with
  | start =>
    cases state with
    | created => exact .starts
    | running | stopped => exact .stays _
  | stop | drop =>
    cases state with
    | running => exact .stops
    | created | stopped => exact .stays _
  | refresh | sleep | stopped | release => exact .stays _

end Lifecycle

/-- The calls that can be refused. -/
inductive Call where
  | start
  | refresh
  | stop
  deriving DecidableEq, Repr

namespace Call

def step : Call → Step
  | start => .start
  | refresh => .refresh
  | stop => .stop

def isRefused (state : Lifecycle) : Call → Bool
  | start => state ≠ .created
  | refresh | stop => state ≠ .running

/-- What is told of a call that is refused. -/
def ignored (state : Lifecycle) : Call → Event
  | start => .startIgnored state
  | refresh => .refreshIgnored state
  | stop => .stopIgnored state

end Call

/-- The calls that are still to change the lifecycle. -/
def Lifecycle.ahead : Lifecycle → List Call
  | created => [.start, .stop]
  | running => [.stop]
  | stopped => []

/-- The start or stop that a step is, if it is one and has returned true. -/
def Step.accepted? : Step → Option Bool → Option Call
  | .start, some true => some .start
  | .stop, some true => some .stop
  | _, _ => none

namespace Simulation

open Scheduler

variable {m m' n n' : Simulation} {step : Step} {steps : List Step} {returned : Option Bool}
  {reports : List Report} {call : Call}

theorem lifecycle_runFor (halt : Scheduler → Bool) (target fuel : Nat) (s : Scheduler) :
    (runFor halt target fuel s).lifecycle = s.lifecycle := by
  induction fuel generalizing s with
  | zero => rfl
  | succ fuel ih =>
    simp only [runFor]
    split
    · rfl
    · cases hr : s.nextReady target with
      | none => rfl
      | some x =>
        obtain ⟨i, time⟩ := x
        obtain ⟨l, c, r, hl, rfl, -⟩ := nextReady_some hr
        exact (ih _).trans (turn_of_poll (s := s.wait time) hl).lifecycle_eq

theorem lifecycle_apply (m : Simulation) (step : Step) :
    (m.apply step).2.scheduler.lifecycle = m.scheduler.lifecycle.after step := by
  obtain ⟨facade, s, dropped⟩ := m
  cases step with
  | start | refresh | stop | drop =>
    obtain ⟨cadence, bench, lifecycle, nextCycle, live⟩ := s
    cases lifecycle <;> cases facade <;> rfl
  | release r => rfl
  | sleep ms => exact lifecycle_runFor _ _ _ s
  | stopped ms =>
    simp only [apply, awaitDrained]
    split
    · rfl
    · split <;> exact lifecycle_runFor _ _ _ s

theorem Takes.lifecycle_eq (ht : Takes m step returned m') :
    m'.scheduler.lifecycle = m.scheduler.lifecycle.after step := by
  cases ht with
  | start => exact lifecycle_apply m .start
  | stop => exact lifecycle_apply m .stop
  | refresh => exact lifecycle_apply m .refresh
  | release r => exact lifecycle_apply m (.release r)
  | drop => exact lifecycle_apply m .drop
  | drained => rfl
  | sleep hp | drains _ hp | waitsInVain _ hp => exact hp.lifecycle_eq

theorem Takes.dropped (ht : Takes m step returned m') (h : m.dropped = true) :
    m'.dropped = true := by
  cases ht <;> first | exact h | rfl

theorem Runs.dropped (hr : Runs m steps reports m') (h : m.dropped = true) :
    m'.dropped = true ∧ ∀ r ∈ reports, r.lifecycle = none := by
  induction hr with
  | nil => exact ⟨h, by simp⟩
  | cons ht _ ih =>
    obtain ⟨hend, hall⟩ := ih (ht.dropped h)
    refine ⟨hend, List.forall_mem_cons.mpr ⟨?_, hall⟩⟩
    simp [report, ht.dropped h]

/-- The lifecycle that is reported moves on step by step. -/
theorem Runs.next (hr : Runs m steps reports m') :
    (m.scheduler.lifecycle :: reports.filterMap (·.lifecycle)).IsChain Lifecycle.Next := by
  induction hr with
  | nil => exact .singleton _
  | @cons m m' _ step steps returned reports ht hr ih =>
    cases hd : m'.dropped with
    | true =>
      have hnone : reports.filterMap (·.lifecycle) = [] :=
        List.filterMap_eq_nil_iff.mpr (hr.dropped hd).2
      simp [report, hd, hnone]
    | false =>
      have hnext := m.scheduler.lifecycle.next_after step
      rw [← ht.lifecycle_eq] at hnext
      simpa [report, hd] using ⟨hnext, ih⟩

/-- A call is accepted where it is not refused. -/
theorem returned_call (m : Simulation) (call : Call) :
    (m.apply call.step).1 = some (!call.isRefused m.scheduler.lifecycle) := by
  obtain ⟨facade, ⟨cadence, bench, lifecycle, nextCycle, live⟩, dropped⟩ := m
  cases call <;> cases lifecycle <;> rfl

/-- A step uses up the call that it is, if that is accepted. -/
theorem Takes.ahead (ht : Takes m step returned m') :
    (∃ call, step.accepted? returned = some call ∧
        m.scheduler.lifecycle.ahead = call :: m'.scheduler.lifecycle.ahead) ∨
      step.accepted? returned = none ∧
        m'.scheduler.lifecycle.ahead <+: m.scheduler.lifecycle.ahead := by
  rw [ht.lifecycle_eq]
  cases ht with
  | start =>
    have hreturned : (m.apply .start).1 = _ := returned_call m .start
    rw [hreturned]
    cases m.scheduler.lifecycle with
    | created => exact .inl ⟨.start, rfl, rfl⟩
    | running | stopped => exact .inr ⟨rfl, List.prefix_rfl⟩
  | stop =>
    have hreturned : (m.apply .stop).1 = _ := returned_call m .stop
    rw [hreturned]
    cases m.scheduler.lifecycle with
    | running => exact .inl ⟨.stop, rfl, rfl⟩
    | created | stopped => exact .inr ⟨rfl, List.prefix_rfl⟩
  | drop =>
    cases m.scheduler.lifecycle with
    | running => exact .inr ⟨rfl, List.nil_prefix⟩
    | created | stopped => exact .inr ⟨rfl, List.prefix_rfl⟩
  | refresh | release | sleep | drained | drains | waitsInVain =>
    exact .inr ⟨rfl, List.prefix_rfl⟩

/-- A run accepts calls as they are ahead: a start once, and then a stop once. -/
theorem Runs.accepted (hr : Runs m steps reports m') :
    (steps.zip reports).filterMap (fun x => x.1.accepted? x.2.returned) <+:
      m.scheduler.lifecycle.ahead := by
  induction hr with
  | nil => exact List.nil_prefix
  | @cons m m' _ step steps returned reports ht _ ih =>
    rw [List.zip_cons_cons, List.filterMap_cons]
    rcases ht.ahead with ⟨call, hcall, hahead⟩ | ⟨hnone, hahead⟩
    · rw [hahead]
      simp only [report, hcall]
      exact (List.prefix_cons_inj call).mpr ih
    · simp only [report, hnone]
      exact ih.trans hahead

end Simulation
end Heartbeat
