import Heartbeat.Proofs.Actions
import Heartbeat.Proofs.Histories

/-!
# Heartbeat.Proofs.Guards

Runs in which whatever could go wrong is guarded: what is not defined everywhere is checked before
it is done, timers are set as the settings ask for, be they accepted or not, and every number that
is told is a word.

* `Fault`             — what would end a run with a panic.
* `Guarded`           — the operations with their guards.
* `Guarded.act_eq`    — no guard stops an action, and the words hold what they are given.
* `Guarded.actAll_eq` — so it is for a whole run.
* `Reachable.limited` — the tries that are told of are the limit of the cycle.
-/

namespace Heartbeat

/-! ## Guards -/

namespace Settings

/-- The delay that a kind of cycle is to have. -/
def delay (settings : Settings) : CycleKind → Nat
  | .slowRefresh => settings.refreshInterval
  | .fastBringup | .adHoc => 0

/-- The tries that a kind of cycle is to have, if there is a limit to them. -/
def limit? (settings : Settings) : CycleKind → Option Nat
  | .fastBringup => none
  | .slowRefresh | .adHoc => some settings.maxTries

theorem delay_lt {settings : Settings} (fits : settings.refreshInterval < UInt64.size)
    (kind : CycleKind) : settings.delay kind < UInt64.size := by
  cases kind with
  | slowRefresh => exact fits
  | fastBringup | adHoc => exact (by decide : 0 < UInt64.size)

end Settings

/-- What would end a run with a panic. -/
inductive Fault where
  /-- A cycle is armed in a state in which none may be. -/
  | armedWhile (state : Lifecycle)
  /-- A timer is made without a period. -/
  | noPeriod
  /-- A remainder is taken by a period of zero. -/
  | remainderByZero
  /-- Something is taken from a count of nothing. -/
  | underflow
  deriving DecidableEq, Repr

/-- Whatever a tick begins with, it counts. -/
theorem Attempt.start_attempt (a : Attempt) (b : Bench) : (a.start b).2.1 = a.count := by
  simp only [Attempt.start]
  split
  · split <;> rfl
  · rfl

namespace Guarded

open Scheduler

section Definitions

variable (settings : Settings)

/-- What a word of 64 bits holds of a number. -/
def asWord (n : Nat) : Nat := n.toUInt64.toNat

def pred (n : Nat) : Except Fault Nat :=
  if n = 0 then .error .underflow else .ok (n - 1)

/-- The period of a timer. -/
def timer (period : Nat) : Except Fault { p : Nat // 0 < p } :=
  if h : period = 0 then .error .noPeriod else .ok ⟨period, Nat.pos_of_ne_zero h⟩

/-- A tick that is not too late takes no remainder. -/
def nextDeadline (deadline late period : Nat) : Except Fault Nat :=
  if late ≤ lateTolerance then .ok (deadline + period)
  else if period = 0 then .error .remainderByZero
  else .ok (deadline + late + period - late % period)

/-- A counter that wraps is read as the word of one that does not. The timer of the cycle is made
right away. -/
def arm (s : Scheduler) (kind : CycleKind) : Except Fault Scheduler :=
  if s.lifecycle ≠ .running then .error (.armedWhile s.lifecycle)
  else do
    let t := { s with nextCycle := asWord s.nextCycle }
    let delay := settings.delay kind
    let period ← timer settings.sendInterval
    return { t.note (.armed t.nextCycle kind (asWord delay)) with
      nextCycle := s.nextCycle + 1
      live := s.live ++ [{ t.armed (.ofKind s.cadence kind) with
        period := period.1
        period_pos := period.2
        phase := .idle (s.bench.now + delay) }] }

def start (s : Scheduler) : Except Fault (Bool × Scheduler) :=
  if s.lifecycle = .created then do
    let s' ← arm settings { s with lifecycle := .running } .fastBringup
    return (true, s')
  else return (false, s.note (.startIgnored s.lifecycle))

def refresh (s : Scheduler) : Except Fault (Bool × Scheduler) :=
  if s.lifecycle = .running then do
    let s' ← arm settings s .adHoc
    return (true, s')
  else return (false, s.note (.refreshIgnored s.lifecycle))

def complete (s : Scheduler) (cycle : Nat) : OnSuccess → Except Fault Scheduler
  | .nothing => return s
  | .armSlowRefresh =>
    if s.lifecycle = .running then arm settings s .slowRefresh
    else return s.note (.notRearmed cycle)

def endTick (s : Scheduler) (i : Nat) (c : LiveCycle) (deadline late : Nat) (o : Outcome) :
    Except Fault Scheduler := do
  let s := { s with bench := c.attempt.report o s.bench }
  if o.isSuccess then complete settings (s.remove i) c.attempt.cycle c.onSuccess
  else
    let deadline ← nextDeadline deadline late c.period
    return s.replace i { c with phase := .idle deadline }

def beginTick (s : Scheduler) (i : Nat) (c : LiveCycle) (deadline : Nat) :
    Except Fault Scheduler := do
  let late := s.bench.now - deadline
  -- a timer reckons its next deadline as the tick begins, whatever comes of the tick
  let _ ← nextDeadline deadline late c.period
  match c.attempt.start s.bench with
  | (.exhausted, a, b) =>
    let tries ← pred a.ticks
    return { s with bench := b.note (.exhausted a.cycle a.kind tries) }.remove i
  | (.settled o, a, b) =>
    endTick settings { s with bench := b } i { c with attempt := a } deadline late o
  | (.sent send, a, b) =>
    return { s with bench := b }.replace i
      { c with attempt := a, phase := .waiting deadline late send }

def poll (s : Scheduler) (i : Nat) : Except Fault Scheduler :=
  match s.live[i]? with
  | none => return s
  | some c =>
    match c.phase with
    | .idle deadline =>
      if s.isStopped then return (s.note (.cancelled c.attempt.cycle c.attempt.kind)).remove i
      else beginTick settings s i c deadline
    | .waiting deadline late send =>
      endTick settings s i c deadline late (s.ending c deadline late send).2

def act (s : Scheduler) : Action → Except Fault Scheduler
  | .start => return (← start settings s).2
  | .refresh => return (← refresh settings s).2
  | .poll i => poll settings s i
  | .stop => return s.stop.2
  | .drop => return s.drop
  | .release r => return s.release r
  | .announce => return s.note .reporterStopped
  | .wait time => return s.wait time

/-- A run up to its first fault. -/
def actAll (s : Scheduler) (actions : List Action) : Except Fault Scheduler :=
  actions.foldlM (act settings) s

end Definitions

/-! ## No guard stops anything -/

variable {settings : Settings} {s : Scheduler} {c : LiveCycle}
  {i n deadline late period : Nat} {o : Outcome}

theorem asWord_of_lt (h : n < UInt64.size) : asWord n = n := UInt64.toNat_ofNat_of_lt' h

theorem pred_count (a : Attempt) : pred a.count.ticks = .ok (a.count.ticks - 1) := by
  have hpos : a.count.ticks ≠ 0 := by
    have : 0 < Attempt.greatestTicks := by decide
    simp only [Attempt.count]
    omega
  rw [pred, if_neg hpos]

theorem timer_eq (pos : 0 < period) : timer period = .ok ⟨period, pos⟩ :=
  dif_neg (Nat.ne_of_gt pos)

theorem nextDeadline_eq (deadline late : Nat) (pos : 0 < period) :
    nextDeadline deadline late period = .ok (Heartbeat.nextDeadline deadline late period) := by
  unfold nextDeadline Heartbeat.nextDeadline
  split
  · rfl
  · rw [if_neg (Nat.ne_of_gt pos)]

/-- Settings that are accepted give a timer its period. -/
theorem arm_eq (accepted : settings.cadence = .ok s.cadence)
    (fits : settings.refreshInterval < UInt64.size) (running : s.lifecycle = .running)
    (hn : s.nextCycle < UInt64.size) (kind : CycleKind) :
    arm settings s kind = .ok (s.arm (.ofKind s.cadence kind)) := by
  have hdelay := asWord_of_lt (Settings.delay_lt fits kind)
  obtain rfl := Settings.of_cadence accepted
  rw [arm, if_neg (not_not_intro running)]
  simp only [asWord_of_lt hn, hdelay, timer_eq s.cadence.sendInterval_pos]
  cases kind <;> rfl

example (k : Cadence) (factory : Script (Except ErrorChain Descriptor)) (script : Script Reply)
    (kind : CycleKind) :
    arm settings (fresh k factory script) kind = .error (.armedWhile .created) := rfl

example (running : s.lifecycle = .running) (kind : CycleKind) :
    arm { sendInterval := 0 } s kind = .error .noPeriod := by
  rw [arm, if_neg (not_not_intro running)]
  rfl

section Accepted

variable (accepted : settings.cadence = .ok s.cadence)
  (fits : settings.refreshInterval < UInt64.size)

include accepted fits

theorem start_eq (few : s.start.2.nextCycle ≤ UInt64.size) :
    start settings s = .ok s.start := by
  simp only [start, Scheduler.start] at few ⊢
  split at few
  · rename_i hs
    rw [if_pos hs, if_pos hs, arm_eq (s := { s with lifecycle := .running }) accepted fits rfl few]
    rfl
  · rename_i hs
    rw [if_neg hs, if_neg hs]
    rfl

theorem refresh_eq (few : s.refresh.2.nextCycle ≤ UInt64.size) :
    refresh settings s = .ok s.refresh := by
  simp only [refresh, Scheduler.refresh] at few ⊢
  split at few
  · rename_i hs
    rw [if_pos hs, if_pos hs, arm_eq accepted fits hs few]
    rfl
  · rename_i hs
    rw [if_neg hs, if_neg hs]
    rfl

/-- On the way of a delivery too, a cycle is armed only while running. -/
theorem complete_eq (cycle : Nat) (k : OnSuccess)
    (few : (s.complete cycle k).nextCycle ≤ UInt64.size) :
    complete settings s cycle k = .ok (s.complete cycle k) := by
  cases k with
  | nothing => rfl
  | armSlowRefresh =>
    simp only [complete, Scheduler.complete] at few ⊢
    split at few
    · rename_i hs
      rw [if_pos hs, if_pos hs, arm_eq accepted fits hs few]
      rfl
    · rename_i hs
      rw [if_neg hs, if_neg hs]
      rfl

theorem endTick_eq (few : (s.endTick i c deadline late o).nextCycle ≤ UInt64.size) :
    endTick settings s i c deadline late o = .ok (s.endTick i c deadline late o) := by
  simp only [endTick, Scheduler.endTick] at few ⊢
  split at few
  · rename_i ho
    rw [if_pos ho, if_pos ho]
    exact complete_eq (s := { s with bench := c.attempt.report o s.bench }.remove i) accepted fits
      _ _ few
  · rename_i ho
    rw [if_neg ho, if_neg ho, nextDeadline_eq _ _ c.period_pos]
    rfl

/-- The tick that finds the tries used up has been counted, so one can be taken off. -/
theorem beginTick_eq (few : (s.beginTick i c deadline).nextCycle ≤ UInt64.size) :
    beginTick settings s i c deadline = .ok (s.beginTick i c deadline) := by
  have hcount := c.attempt.start_attempt s.bench
  simp only [beginTick, Scheduler.beginTick, nextDeadline_eq _ _ c.period_pos] at few ⊢
  rcases hstart : c.attempt.start s.bench with ⟨begun, a, b⟩
  rw [hstart] at few hcount
  cases begun with
  | exhausted =>
    obtain rfl : a = c.attempt.count := hcount
    simp only [bind, Except.bind, pred_count]
    rfl
  | settled o => exact endTick_eq (s := { s with bench := b }) accepted fits few
  | sent send => rfl

theorem poll_eq (few : (s.poll i).nextCycle ≤ UInt64.size) :
    poll settings s i = .ok (s.poll i) := by
  simp only [poll, Scheduler.poll] at few ⊢
  cases hi : s.live[i]? with
  | none => rfl
  | some c =>
    simp only [hi] at few
    cases hp : c.phase with
    | idle deadline =>
      simp only [hp] at few ⊢
      split at few
      · rename_i hs
        rw [if_pos hs, if_pos hs]
        rfl
      · rename_i hs
        rw [if_neg hs, if_neg hs]
        exact beginTick_eq accepted fits few
    | waiting deadline late send =>
      simp only [hp] at few ⊢
      exact endTick_eq accepted fits few

theorem act_eq {a : Action} (few : (s.act a).nextCycle ≤ UInt64.size) :
    act settings s a = .ok (s.act a) := by
  cases a with
  | start => rw [act, start_eq accepted fits few]; rfl
  | refresh => rw [act, refresh_eq accepted fits few]; rfl
  | poll i => exact poll_eq accepted fits few
  | stop | drop | release | announce | wait => rfl

/-- By induction on the actions: what is armed later counts further. -/
theorem actAll_eq (h : Reachable s) {actions : List Action} (can : s.CanActAll actions)
    (few : (s.actAll actions).nextCycle ≤ UInt64.size) :
    actAll settings s actions = .ok (s.actAll actions) := by
  induction actions generalizing s with
  | nil => rfl
  | cons a actions ih =>
    have hm : Move s (s.act a) := move_act can.1
    have hmoves : (s.act a).Moves ((s.act a).actAll actions) := moves_iff.mpr ⟨_, can.2, rfl⟩
    have hle := hmoves.nextCycle_le (h.move hm)
    rw [actAll, List.foldlM_cons, act_eq accepted fits (Nat.le_trans hle few)]
    exact ih (hm.cadence_eq ▸ accepted) (h.move hm) can.2 few

end Accepted
end Guarded

/-! ## What is told of limits -/

namespace Course

variable {k : Course} {c : Cadence} {laps : List Lap} {stage : Stage}

theorem isExhausted_of_mem_ticked {e : Entry} (h : e ∈ k.ticked c laps) :
    e.event.isExhausted = false := by
  induction laps with
  | nil =>
    rw [List.mem_singleton.mp h]
    rfl
  | cons x earlier ih =>
    rcases List.mem_append.mp h with h | h
    · exact ih h
    · cases x with
      | unsent chain =>
        rw [List.mem_singleton.mp h, Attempt.isExhausted_verdict]
      | sent d lasted o =>
        rcases List.mem_cons.mp h with rfl | h
        · rfl
        · rw [List.mem_singleton.mp h, Attempt.isExhausted_verdict]

/-- A course tells at its very end that the tries are used up, and of all its ticks. -/
theorem eq_of_exhausted_mem {time id tries : Nat} {kind : CycleKind}
    (h : ⟨time, .exhausted id kind tries⟩ ∈ k.entries c laps stage) :
    stage = .exhausted ∧ kind = k.kind ∧ tries = laps.length := by
  rcases List.mem_append.mp h with h | h
  · cases isExhausted_of_mem_ticked h
  · cases stage with
    | idle | waiting | cancelled => simp [closing] at h
    | delivered late => cases late <;> simp [closing] at h
    | exhausted =>
      simp only [closing, List.mem_singleton, Entry.mk.injEq, Event.exhausted.injEq] at h
      exact ⟨rfl, h.2.2.1, h.2.2.2⟩

end Course

open Scheduler

/-- The tries that are told of are those that the kind of the cycle has. -/
theorem Scheduler.Reachable.limited {s : Scheduler} (h : Reachable s) {time id tries : Nat}
    {kind : CycleKind} (he : ⟨time, .exhausted id kind tries⟩ ∈ s.bench.log) :
    ∃ pos, (Cycle.ofKind s.cadence kind).policy.maxTries = .limited tries pos := by
  obtain ⟨k, laps, stage, -, hr, hmem⟩ := h.recorded_of_mem he rfl
  rw [hr.history] at hmem
  obtain ⟨rfl, rfl, rfl⟩ := Course.eq_of_exhausted_mem hmem
  cases hr.stands with
  | exhausted _ used => exact hr.ran.limited used

/-- **No run faults.** Settings are accepted, with numbers as large as their words hold, and a run
arms fewer cycles than a word can number; whatever the collaborators do and whatever is polled
first, the run with all guards comes to the same as without. So cycles are armed only while
running, on the way of a delivery too; no timer is without a period, and no remainder is taken by
zero, as every live cycle has the send interval for its period; a tick is counted before one is
taken off the count, which leaves the limit of the cycle; and the delay that is told is the one
that the settings ask for. -/
theorem no_run_faults {settings : Settings} {c : Cadence}
    {factory : Script (Except ErrorChain Descriptor)} {script : Script Reply}
    {actions : List Action} (word : settings.maxTries < UInt32.size)
    (fits : settings.refreshInterval < UInt64.size) (accepted : settings.cadence = .ok c)
    (uncalled : factory.taken = 0) (unasked : script.taken = 0)
    (can : (fresh c factory script).CanActAll actions)
    (few : ((fresh c factory script).actAll actions).armedCycles.length < UInt64.size) :
    let s := (fresh c factory script).actAll actions
    Guarded.actAll settings (fresh c factory script) actions = .ok s ∧
      0 < settings.sendInterval ∧ (∀ x ∈ s.live, x.period = settings.sendInterval) ∧
      (∀ time id kind delay, ⟨time, .armed id kind delay⟩ ∈ s.bench.log →
        delay = settings.delay kind) ∧
      ∀ time id kind tries, ⟨time, .exhausted id kind tries⟩ ∈ s.bench.log →
        settings.limit? kind = some tries := by
  intro s
  have hfresh : Reachable (fresh c factory script) := .fresh word accepted uncalled unasked
  have hmoves : (fresh c factory script).Moves s := moves_iff.mpr ⟨actions, can, rfl⟩
  have h : Reachable s := hfresh.moves hmoves
  have hcadence : s.cadence = c := hmoves.cadence_eq
  obtain rfl := Settings.of_cadence accepted
  refine ⟨?_, c.sendInterval_pos, fun x hx => ?_, fun time id kind delay he => ?_,
    fun time id kind tries he => ?_⟩
  · have harmings : s.armedCycles.length = s.nextCycle - 1 := by
      rw [h.counted.numbered, List.length_range']
    have hfew : s.nextCycle - 1 < UInt64.size := harmings.symm.trans_lt few
    exact Guarded.actAll_eq accepted fits hfresh can (Nat.le_of_pred_lt hfew)
  · exact hcadence ▸ (h.sound.each x hx).period
  · obtain ⟨rfl, -⟩ := h.recorded he
    rw [hcadence]
    cases kind <;> rfl
  · obtain ⟨pos, hlimit⟩ := h.limited he
    rw [hcadence] at hlimit
    cases kind <;> cases hlimit <;> rfl

namespace Simulation

/-- The longest times that words hold, and one try. -/
def sluggish : Settings where
  sendInterval := UInt64.size - 1
  refreshInterval := UInt64.size - 1
  maxTries := 1
  responseTimeout := UInt64.size - 1

/-- With these settings, and a collector that refuses everything after the first delivery, a
bring-up and then a cycle that is asked for out of turn. -/
def patientRun : Scheduler × List Action where
  fst := { (sample [.ack] .refused).scheduler with
    cadence := ⟨sluggish.sendInterval, sluggish.refreshInterval, sluggish.maxTries,
      sluggish.responseTimeout, by decide, by decide, by decide, by decide⟩ }
  snd := [.start, .poll 0, .poll 0, .refresh, .poll 1, .poll 1, .wait (UInt64.size - 1), .poll 1]

/-- The refresh is armed for the last millisecond that a word holds, and the other cycle finds its
one try used up right then. -/
theorem patientRun_is_faultless :
    Guarded.actAll sluggish patientRun.1 patientRun.2 =
        .ok (patientRun.1.actAll patientRun.2) ∧
      ⟨0, .armed 2 .slowRefresh 18446744073709551615⟩ ∈
        (patientRun.1.actAll patientRun.2).bench.log ∧
      ⟨18446744073709551615, .exhausted 3 .adHoc 1⟩ ∈
        (patientRun.1.actAll patientRun.2).bench.log := by
  have accepted : sluggish.cadence = .ok patientRun.1.cadence := rfl
  have can : patientRun.1.CanActAll patientRun.2 := by decide
  have few : (patientRun.1.actAll patientRun.2).armedCycles.length < UInt64.size := by decide
  have faultless := no_run_faults (by decide) (by decide) accepted rfl rfl can few
  exact ⟨faultless.1, by decide, by decide⟩

end Simulation
end Heartbeat
