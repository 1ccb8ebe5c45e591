import Heartbeat.Simulation

/-!
# Heartbeat.Proofs.Moves

What a scheduler does, in its smallest steps and in any order.

* `Move s s'`   — one call, one passage of time that misses nothing, or one poll of a ready cycle.
* `Moves s s'`  — finitely many moves.
* `Reachable s` — `s` comes from a scheduler just created.
* `Turn`        — everything that one poll can do, case by case; `turn_of_poll` is the only place
  where `poll` is opened.
* `Effect`      — everything that one move can do.

The order in which cycles that are ready at one time are polled is left open, so what holds of
every reachable scheduler holds whatever that order is.
-/

namespace Heartbeat

/-- The cycle of each kind that a cadence leads to. -/
def Cycle.ofKind (c : Cadence) : CycleKind → Cycle
  | .fastBringup => .fastBringup c
  | .slowRefresh => .slowRefresh c
  | .adHoc => .adHoc c

/-- The kinds that make up the main chain. -/
def CycleKind.isMain : CycleKind → Bool
  | .fastBringup | .slowRefresh => true
  | .adHoc => false

theorem onSuccess_ofKind (c : Cadence) (k : CycleKind) :
    (Cycle.ofKind c k).onSuccess = if k.isMain then .armSlowRefresh else .nothing := by
  cases k <;> rfl

namespace Bench

variable (b : Bench) (e : Event) (time : Nat)

@[simp] theorem note_now : (b.note e).now = b.now := rfl
@[simp] theorem note_factory : (b.note e).factory = b.factory := rfl
@[simp] theorem note_transport : (b.note e).transport = b.transport := rfl
@[simp] theorem note_log : (b.note e).log = ⟨b.now, e⟩ :: b.log := rfl

@[simp] theorem moveTo_now : (b.moveTo time).now = max b.now time := rfl

end Bench

namespace Scheduler

/-- A scheduler just created. -/
def fresh (c : Cadence) (factory : Script (Except ErrorChain Descriptor))
    (script : Script Reply) : Scheduler where
  cadence := c
  bench := { factory, transport := { script } }

/-- Lets time pass and polls nothing. -/
def wait (s : Scheduler) (time : Nat) : Scheduler := { s with bench := s.bench.moveTo time }

inductive Move (s : Scheduler) : Scheduler → Prop where
  | start : Move s s.start.2
  | refresh : Move s s.refresh.2
  | stop : Move s s.stop.2
  | drop : Move s s.drop
  | release (r : Reply) : Move s (s.release r)
  /-- The public face tells of a stop. -/
  | announce : s.lifecycle = .stopped → Move s (s.note .reporterStopped)
  /-- No cycle is ready before the time to which the clock moves. -/
  | wait (time : Nat) : (∀ c ∈ s.live, time ≤ s.wakeTime c) → Move s (s.wait time)
  | poll {l r : List LiveCycle} {c : LiveCycle} :
      s.live = l ++ c :: r → s.wakeTime c ≤ s.bench.now → Move s (s.poll l.length)

inductive Moves (s : Scheduler) : Scheduler → Prop where
  | refl : Moves s s
  | tail {s' s'' : Scheduler} : Moves s s' → Move s' s'' → Moves s s''

/-- What a scheduler comes to that was made from acceptable settings and scripts not yet begun. The
number of tries is a word of 32 bits. -/
inductive Reachable : Scheduler → Prop where
  | fresh {settings : Settings} {c : Cadence} {factory : Script (Except ErrorChain Descriptor)}
      {script : Script Reply} (word : settings.maxTries < UInt32.size)
      (accepted : settings.cadence = .ok c) (uncalled : factory.taken = 0)
      (unasked : script.taken = 0) :
      Reachable (fresh c factory script)
  | move {s s' : Scheduler} : Reachable s → Move s s' → Reachable s'

namespace Moves

theorem single {s s' : Scheduler} (h : Move s s') : Moves s s' := .tail .refl h

theorem trans {s s' s'' : Scheduler} (h₁ : Moves s s') (h₂ : Moves s' s'') : Moves s s'' := by
  induction h₂ with
  | refl => exact h₁
  | tail _ hm ih => exact .tail ih hm

end Moves

theorem Reachable.moves {s s' : Scheduler} (h : Reachable s) (hm : Moves s s') :
    Reachable s' := by
  induction hm with
  | refl => exact h
  | tail _ hm ih => exact .move ih hm

/-! ## What the operations change -/

section Projections

variable (s : Scheduler) (e : Event) (c : Cycle)

@[simp] theorem note_bench : (s.note e).bench = s.bench.note e := rfl
@[simp] theorem note_live : (s.note e).live = s.live := rfl
@[simp] theorem wait_bench (time : Nat) : (s.wait time).bench = s.bench.moveTo time := rfl
@[simp] theorem arm_nextCycle : (s.arm c).nextCycle = s.nextCycle + 1 := rfl
@[simp] theorem arm_live : (s.arm c).live = s.live ++ [s.armed c] := rfl

end Projections

/-! ## What a poll does -/

/-- What the poll of a cycle `c` does that has the live cycles `l` before it and `r` after it. -/
inductive Turn (s : Scheduler) (l : List LiveCycle) (c : LiveCycle) (r : List LiveCycle) :
    Scheduler → Prop where
  | cancelled {deadline : Nat} :
      c.phase = .idle deadline → s.lifecycle = .stopped →
      Turn s l c r { s.note (.cancelled c.attempt.cycle c.attempt.kind) with live := l ++ r }
  | exhausted {deadline : Nat} :
      c.phase = .idle deadline → s.lifecycle ≠ .stopped →
      c.attempt.maxTries.allows c.attempt.count.ticks = false →
      Turn s l c r
        { s.note (.exhausted c.attempt.cycle c.attempt.kind (c.attempt.count.ticks - 1)) with
          live := l ++ r }
  /-- The tick begins without a descriptor, and so ends at once. -/
  | unsent {deadline : Nat} {chain : ErrorChain} :
      c.phase = .idle deadline → s.lifecycle ≠ .stopped →
      c.attempt.maxTries.allows c.attempt.count.ticks = true →
      s.bench.factory.next = .error chain →
      Turn s l c r { s with
        bench := { s.bench.note (c.attempt.count.verdict (.fail .descriptor chain.message)) with
          factory := s.bench.factory.advance }
        live := l ++ { c with
          attempt := c.attempt.count
          phase := .idle (nextDeadline deadline (s.bench.now - deadline) c.period) } :: r }
  | sent {deadline : Nat} {d : Descriptor} :
      c.phase = .idle deadline → s.lifecycle ≠ .stopped →
      c.attempt.maxTries.allows c.attempt.count.ticks = true →
      s.bench.factory.next = .ok d →
      Turn s l c r { s with
        bench := { s.bench.note (.sending c.attempt.cycle d.agentId) with
          factory := s.bench.factory.advance
          transport := s.bench.transport.send s.bench.now d }
        live := l ++ { c with
          attempt := c.attempt.count
          phase := .waiting deadline (s.bench.now - deadline) s.bench.transport.sends.length } ::
            r }
  | retried {deadline late send : Nat} {o : Outcome} :
      c.phase = .waiting deadline late send → (s.ending c deadline late send).2 = o →
      o.isSuccess = false →
      Turn s l c r { s.note (c.attempt.verdict o) with
        live := l ++ { c with phase := .idle (nextDeadline deadline late c.period) } :: r }
  | delivered {deadline late send : Nat} :
      c.phase = .waiting deadline late send → (s.ending c deadline late send).2 = .success →
      c.onSuccess = .nothing →
      Turn s l c r { s.note (c.attempt.verdict .success) with live := l ++ r }
  | rearmed {deadline late send : Nat} :
      c.phase = .waiting deadline late send → (s.ending c deadline late send).2 = .success →
      c.onSuccess = .armSlowRefresh → s.lifecycle = .running →
      Turn s l c r ({ s.note (c.attempt.verdict .success) with live := l ++ r }.arm
        (.slowRefresh s.cadence))
  | notRearmed {deadline late send : Nat} :
      c.phase = .waiting deadline late send → (s.ending c deadline late send).2 = .success →
      c.onSuccess = .armSlowRefresh → s.lifecycle ≠ .running →
      Turn s l c r { (s.note (c.attempt.verdict .success)).note (.notRearmed c.attempt.cycle) with
        live := l ++ r }

theorem eq_success_of_isSuccess {o : Outcome} (h : o.isSuccess = true) : o = .success := by
  cases o <;> simp_all [Outcome.isSuccess]

theorem eraseIdx_length (l r : List LiveCycle) (c : LiveCycle) :
    (l ++ c :: r).eraseIdx l.length = l ++ r := by
  rw [List.eraseIdx_append_of_length_le (Nat.le_refl _)]; simp

theorem turn_of_endTick {s : Scheduler} {l r : List LiveCycle} {c : LiveCycle}
    {deadline late send : Nat} (hl : s.live = l ++ c :: r)
    (hp : c.phase = .waiting deadline late send) :
    Turn s l c r
      (s.endTick l.length c deadline late (s.ending c deadline late send).2) := by
  generalize ho : (s.ending c deadline late send).2 = o
  cases hs : o.isSuccess with
  | false =>
    have := Turn.retried (l := l) (r := r) hp ho hs
    simpa [endTick, replace, Attempt.report, hs, hl, note] using this
  | true =>
    cases eq_success_of_isSuccess hs
    cases hk : c.onSuccess with
    | nothing =>
      have := Turn.delivered (l := l) (r := r) hp ho hk
      simpa [endTick, remove, complete, Attempt.report, hs, hl, eraseIdx_length, hk, note] using
        this
    | armSlowRefresh =>
      by_cases hrun : s.lifecycle = .running
      · have := Turn.rearmed (l := l) (r := r) hp ho hk hrun
        simpa [endTick, remove, complete, Attempt.report, hs, hl, eraseIdx_length, hk, hrun, note]
          using this
      · have := Turn.notRearmed (l := l) (r := r) hp ho hk hrun
        simpa [endTick, remove, complete, Attempt.report, hs, hl, eraseIdx_length, hk, hrun, note]
          using this

theorem turn_of_beginTick {s : Scheduler} {l r : List LiveCycle} {c : LiveCycle} {deadline : Nat}
    (hl : s.live = l ++ c :: r) (hp : c.phase = .idle deadline) (hs : s.lifecycle ≠ .stopped) :
    Turn s l c r (s.beginTick l.length c deadline) := by
  have hc : c.attempt.count.cycle = c.attempt.cycle := rfl
  have hk : c.attempt.count.kind = c.attempt.kind := rfl
  have hm : c.attempt.count.maxTries = c.attempt.maxTries := rfl
  cases ha : c.attempt.maxTries.allows c.attempt.count.ticks with
  | false =>
    have := Turn.exhausted (l := l) (r := r) hp hs ha
    simpa [beginTick, Attempt.start, remove, ha, hl, eraseIdx_length, hc, hk, hm, note] using this
  | true =>
    cases hf : s.bench.factory.next with
    | error chain =>
      have := Turn.unsent (l := l) (r := r) hp hs ha hf
      simpa [beginTick, Attempt.start, Bench.send, endTick, replace, Attempt.report, Bench.note,
        Outcome.isSuccess, Outcome.fail, ha, hf, hl, hm] using this
    | ok d =>
      have := Turn.sent (l := l) (r := r) hp hs ha hf
      simpa [beginTick, Attempt.start, Bench.send, replace, Bench.note, ha, hf, hl, hc, hm] using
        this

theorem turn_of_poll {s : Scheduler} {l r : List LiveCycle} {c : LiveCycle}
    (hl : s.live = l ++ c :: r) : Turn s l c r (s.poll l.length) := by
  have hi : s.live[l.length]? = some c := by simp [hl]
  simp only [poll, hi]
  cases hp : c.phase with
  | idle deadline =>
    simp only [isStopped]
    by_cases hs : s.lifecycle = .stopped
    · have := Turn.cancelled (l := l) (r := r) hp hs
      simpa [hs, remove, hl, eraseIdx_length] using this
    · simpa [hs] using turn_of_beginTick hl hp hs
  | waiting deadline late send => exact turn_of_endTick hl hp

/-! ## What a move does -/

/-- Everything that one move can do. -/
inductive Effect (s : Scheduler) : Scheduler → Prop where
  | started : s.lifecycle = .created →
      Effect s ({ s with lifecycle := .running }.arm (.fastBringup s.cadence))
  | refreshed : s.lifecycle = .running → Effect s (s.arm (.adHoc s.cadence))
  | shutDown : s.lifecycle = .running → Effect s s.shutDown
  /-- Nothing but an entry in the log, of no cycle. -/
  | noted {e : Event} : e.cycle? = none → Effect s (s.note e)
  | unchanged : Effect s s
  | released (r : Reply) : Effect s (s.release r)
  | waited (time : Nat) : (∀ c ∈ s.live, time ≤ s.wakeTime c) → Effect s (s.wait time)
  | polled {s' : Scheduler} {l r : List LiveCycle} {c : LiveCycle} :
      s.live = l ++ c :: r → s.wakeTime c ≤ s.bench.now → Turn s l c r s' → Effect s s'

theorem Move.effect {s s' : Scheduler} (h : Move s s') : Effect s s' := by
  cases h with
  | start =>
    unfold Scheduler.start
    split
    · exact .started ‹_›
    · exact .noted rfl
  | refresh =>
    unfold Scheduler.refresh
    split
    · exact .refreshed ‹_›
    · exact .noted rfl
  | stop =>
    unfold Scheduler.stop
    split
    · exact .shutDown ‹_›
    · exact .noted rfl
  | drop =>
    unfold Scheduler.drop
    split
    · exact .shutDown ‹_›
    · exact .unchanged
  | release r => exact .released r
  | announce => exact .noted rfl
  | wait time hw => exact .waited time hw
  | poll hl hw => exact .polled hl hw (turn_of_poll hl)

end Scheduler
end Heartbeat
