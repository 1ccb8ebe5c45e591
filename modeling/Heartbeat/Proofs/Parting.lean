import Heartbeat.Proofs.Lifecycles
import Heartbeat.Proofs.Shutdown
import Heartbeat.Proofs.Unread

/-!
# Heartbeat.Proofs.Parting

A scheduler that is given up goes on as one that is stopped.

* `Report.outward` — what can be seen of a report once the scheduler is given up.
* `Shadows`        — two simulations of which one may have been dropped; they do the same.
* `stopNotice`     — what a stop is told with; without it, a stop is a drop (`shadows_stop`).
* `Parted`         — what the two have come to later.
* `FinishesTick`   — what becomes of a tick that was under way at a drop.
-/

namespace Heartbeat

/-- What can be seen of a report once the scheduler is given up. -/
def Report.outward (r : Report) : Report := { r with lifecycle := none, active := none }

namespace Simulation

open Scheduler

variable {m m' n n' : Simulation} {step : Step} {steps : List Step} {returned : Option Bool}
  {reports : List Report}

/-- Two simulations of which one may have been dropped and the other not. -/
structure Shadows (m n : Simulation) : Prop where
  facade : n.facade = m.facade
  scheduler : n.scheduler = m.scheduler

namespace Shadows

theorem symm (h : Shadows m n) : Shadows n m := ⟨h.facade.symm, h.scheduler.symm⟩

theorem eq_dropped (h : Shadows m n) : n = { m with dropped := n.dropped } := by
  obtain ⟨facade, s, dropped⟩ := n
  obtain ⟨rfl, rfl⟩ := h
  rfl

theorem apply (h : Shadows m n) (step : Step) :
    (n.apply step).1 = (m.apply step).1 ∧ Shadows (m.apply step).2 (n.apply step).2 := by
  rw [h.eq_dropped]
  cases step <;> exact ⟨rfl, rfl, rfl⟩

theorem takes (h : Shadows m n) (ht : Takes m step returned m') :
    ∃ n', Takes n step returned n' ∧ Shadows m' n' := by
  rw [h.eq_dropped]
  cases ht with
  | start => exact ⟨_, .start, rfl, rfl⟩
  | stop => exact ⟨_, .stop, rfl, rfl⟩
  | refresh => exact ⟨_, .refresh, rfl, rfl⟩
  | release r => exact ⟨_, .release r, rfl, rfl⟩
  | drop => exact ⟨_, .drop, rfl, rfl⟩
  | drained hd => exact ⟨_, .drained hd, rfl, rfl⟩
  | sleep hp => exact ⟨_, .sleep hp, rfl, rfl⟩
  | drains hd hp hs hlt => exact ⟨_, .drains hd hp hs hlt, rfl, rfl⟩
  | waitsInVain hd hp hnot => exact ⟨_, .waitsInVain hd hp hnot, rfl, rfl⟩

/-- They report the same, as far as it can be seen when one of them has been dropped. -/
theorem report (h : Shadows m n) (h' : Shadows m' n') (returned : Option Bool) :
    (n.report n' returned).outward = (m.report m' returned).outward := by
  rw [h.eq_dropped, h'.eq_dropped]
  rfl

theorem run (h : Shadows m n) (steps : List Step) :
    (n.run steps).1.map Report.outward = (m.run steps).1.map Report.outward ∧
      Shadows (m.run steps).2 (n.run steps).2 := by
  induction steps generalizing m n with
  | nil => exact ⟨rfl, h⟩
  | cons step steps ih =>
    obtain ⟨hreturned, h'⟩ := h.apply step
    obtain ⟨hreports, hend⟩ := ih h'
    refine ⟨?_, hend⟩
    simp only [Simulation.run, Simulation.step, List.map_cons, hreturned, h.report h', hreports]

theorem runs (h : Shadows m n) (hr : Runs m steps reports m') : ∃ reports' n',
    Runs n steps reports' n' ∧ reports'.map Report.outward = reports.map Report.outward ∧
      Shadows m' n' := by
  induction hr generalizing n with
  | nil => exact ⟨[], n, .nil, rfl, h⟩
  | cons ht _ ih =>
    obtain ⟨n₁, ht', h'⟩ := h.takes ht
    obtain ⟨reports', n', hr', hreports, hend⟩ := ih h'
    refine ⟨_, n', .cons ht' hr', ?_, hend⟩
    rw [List.map_cons, List.map_cons, h.report h', hreports]

end Shadows

/-- When it has been dropped nothing else can be seen of a report. -/
theorem outward_report (h : m'.dropped = true) :
    (m.report m' returned).outward = m.report m' returned := by
  simp [Report.outward, report, h]

theorem dropped_apply (h : m.dropped = true) (step : Step) : (m.apply step).2.dropped = true := by
  cases step <;> first | exact h | rfl

theorem outward_run (h : m.dropped = true) (steps : List Step) :
    (m.run steps).1.map Report.outward = (m.run steps).1 := by
  induction steps generalizing m with
  | nil => rfl
  | cons step steps ih =>
    have h' := dropped_apply h step
    have hreports := ih h'
    simp only [run, Simulation.step, List.map_cons, outward_report h', hreports]

theorem Runs.outward (hr : Runs m steps reports m') (h : m.dropped = true) :
    reports.map Report.outward = reports := by
  induction hr with
  | nil => rfl
  | cons ht _ ih =>
    have h' := ht.dropped h
    rw [List.map_cons, outward_report h', ih h']

/-! ## A stop and a drop -/

/-- What a stop is told with: a refused one is ignored, and the public face tells of another. -/
def stopNotice (m : Simulation) : List Entry :=
  if m.scheduler.lifecycle ≠ .running then
    [⟨m.scheduler.bench.now, .stopIgnored m.scheduler.lifecycle⟩]
  else if m.facade = .reporter then [⟨m.scheduler.bench.now, .reporterStopped⟩]
  else []

theorem bench_drop (m : Simulation) : (m.apply .drop).2.scheduler.bench = m.scheduler.bench := by
  obtain ⟨facade, ⟨cadence, bench, lifecycle, nextCycle, live⟩, dropped⟩ := m
  cases lifecycle <;> rfl

theorem shadows_stop (m : Simulation) :
    Shadows ((m.apply .drop).2.withLog (m.stopNotice ++ m.scheduler.bench.log))
      (m.apply .stop).2 := by
  obtain ⟨facade, ⟨cadence, bench, lifecycle, nextCycle, live⟩, dropped⟩ := m
  cases lifecycle <;> cases facade <;> exact ⟨rfl, rfl⟩

theorem arrange_stopNotice (m : Simulation) :
    Entry.arrange m.stopNotice.reverse = m.stopNotice := by
  unfold stopNotice
  split
  · simp [Entry.arrange]
  · split <;> simp [Entry.arrange]

/-- Neither a drop nor a stop sends anything, and only a stop tells of itself. -/
theorem report_parting (m : Simulation) :
    ((m.step .drop).1.sends = [] ∧ (m.step .drop).1.events = []) ∧
      (m.step .stop).1.sends = [] ∧ (m.step .stop).1.events = m.stopNotice := by
  have hdrop : (m.apply .drop).2.scheduler.bench =
      { m.scheduler.bench with log := [] ++ m.scheduler.bench.log } := bench_drop m
  have hstop : (m.apply .stop).2.scheduler.bench =
      { m.scheduler.bench with log := m.stopNotice ++ m.scheduler.bench.log } := by
    rw [(shadows_stop m).scheduler]
    exact congrArg (fun b : Bench => { b with log := m.stopNotice ++ m.scheduler.bench.log })
      (bench_drop m)
  obtain ⟨hsends, hevents⟩ := report_told hdrop none
  obtain ⟨hsends', hevents'⟩ := report_told hstop (m.apply .stop).1
  rw [arrange_stopNotice] at hevents'
  exact ⟨⟨hsends, hevents.trans List.mergeSort_nil⟩, hsends', hevents'⟩

/-- What a drop and a stop of `m` have come to: the same, but for the notice of the stop. -/
def Parted (m last last' : Simulation) : Prop :=
  ∃ new, last.scheduler.bench.log = new ++ m.scheduler.bench.log ∧
    last'.scheduler = last.scheduler.withLog (new ++ (m.stopNotice ++ m.scheduler.bench.log))

theorem run_parted (m : Simulation) (steps : List Step) :
    ((m.apply .drop).2.run steps).1 = ((m.apply .stop).2.run steps).1.map Report.outward ∧
      Parted m ((m.apply .drop).2.run steps).2 ((m.apply .stop).2.run steps).2 := by
  obtain ⟨hreports, hend⟩ := (shadows_stop m).run steps
  obtain ⟨new, hlog, hnoted⟩ := run_withLog (m.apply .drop).2 steps
  rw [hnoted, outward_run (m := (m.apply .drop).2) rfl] at hreports
  rw [hnoted] at hend
  rw [bench_drop] at hlog
  exact ⟨hreports.symm, new, hlog, hend.scheduler⟩

theorem Runs.parted_of_drop (hr : Runs (m.apply .drop).2 steps reports m') :
    ∃ reports' n', Runs (m.apply .stop).2 steps reports' n' ∧
      reports = reports'.map Report.outward ∧ Parted m m' n' := by
  obtain ⟨new, hlog, hnoted⟩ := hr.withLog
  obtain ⟨reports', n', hr', hreports, hend⟩ := (shadows_stop m).runs (hnoted _)
  rw [hr.outward rfl] at hreports
  rw [bench_drop] at hlog
  exact ⟨reports', n', hr', hreports.symm, new, hlog, hend.scheduler⟩

theorem Runs.parted_of_stop (hr : Runs (m.apply .stop).2 steps reports n') :
    ∃ m', Runs (m.apply .drop).2 steps (reports.map Report.outward) m' ∧ Parted m m' n' := by
  obtain ⟨reports', n, hnoted, hreports, hend⟩ := (shadows_stop m).symm.runs hr
  obtain ⟨new, hlog, hquiet⟩ := hnoted.withLog
  have hr' : Runs (m.apply .drop).2 steps reports' (n.withLog (new ++ m.scheduler.bench.log)) := by
    rw [← bench_drop]
    exact hquiet _
  rw [hr'.outward rfl] at hreports
  refine ⟨_, hreports ▸ hr', new, rfl, ?_⟩
  -- the log of `n` is the one with the notice
  have hlog : n.scheduler.withLog (new ++ (m.stopNotice ++ m.scheduler.bench.log)) = n.scheduler :=
    congrArg n.scheduler.withLog hlog.symm
  exact (hlog.trans hend.scheduler).symm

/-! ## What is under way at a drop -/

theorem stoppedAs_drop (h : m.scheduler.lifecycle ≠ .created) :
    m.scheduler.StoppedAs (m.apply .drop).2.scheduler := by
  cases hs : m.scheduler.lifecycle with
  | created => exact absurd hs h
  | running => exact stoppedAs_apply (.inr ⟨hs, rfl⟩)
  | stopped =>
    have hsame : (m.apply .drop).2.scheduler = m.scheduler := by
      simp [apply, Scheduler.drop, hs]
    rw [hsame]
    exact ⟨.refl hs, rfl, rfl, fun _ => rfl⟩

/-- A tick that is under way as a scheduler is dropped is finished, nothing is armed after it, and
it is over at the end of the response timeout. -/
structure FinishesTick (s s' : Scheduler) (c : LiveCycle) (began send : Nat) : Prop where
  finishes : AfterTick s s' c began send
  arms_nothing : s.WindsDown s'
  ends : ∀ ms, s.cadence.responseTimeout ≤ ms → (s'.sleep ms).live = []

theorem finishesTick_of_drop {s' : Scheduler} (h : Reachable m.scheduler)
    (hm : (m.apply .drop).2.scheduler.Moves s') {c : LiveCycle} (hc : c ∈ m.scheduler.live)
    {deadline late send : Nat} (hp : c.phase = .waiting deadline late send) :
    FinishesTick m.scheduler s' c (deadline + late) send := by
  have hcreated : m.scheduler.lifecycle ≠ .created := fun hs => by
    rw [h.sound.created hs] at hc
    cases hc
  have hstopped := stoppedAs_drop hcreated
  have hsound : (m.apply .drop).2.scheduler.Sound := (moves_apply h.sound .drop).sound h.sound
  have haftermath := hstopped.moves h.sound hsound hm hc
  rw [Aftermath, hp] at haftermath
  exact ⟨haftermath, hstopped.winds.trans (hm.windsDown hstopped.winds.lifecycle), fun ms =>
    (hstopped.sleep h.sound hsound hm ms).2⟩

end Simulation

open Scheduler Simulation

/-- **Dropping is stopping.** A drop and a stop at the same point send nothing and tell of nothing
but the notice of the stop; from then on the same steps are reported alike, as far as this can be
seen after a drop, and they come to the same but for that notice: in the order of arming, and in any
other, since each run after the drop is one after the stop, and the other way round. Ticks that are
under way at the drop are finished, and nothing is armed after them. -/
theorem dropping_is_stopping {m : Simulation} (h : Reachable m.scheduler) :
    (((m.step .drop).1.sends = [] ∧ (m.step .drop).1.events = []) ∧
      (m.step .stop).1.sends = [] ∧ (m.step .stop).1.events = m.stopNotice) ∧
    ∀ steps,
      (((m.apply .drop).2.run steps).1 = ((m.apply .stop).2.run steps).1.map Report.outward ∧
        Parted m ((m.apply .drop).2.run steps).2 ((m.apply .stop).2.run steps).2) ∧
      (∀ reports last, Runs (m.apply .drop).2 steps reports last →
        (∃ reports' last', Runs (m.apply .stop).2 steps reports' last' ∧
          reports = reports'.map Report.outward ∧ Parted m last last') ∧
        ∀ c ∈ m.scheduler.live, ∀ deadline late send, c.phase = .waiting deadline late send →
          FinishesTick m.scheduler last.scheduler c (deadline + late) send) ∧
      ∀ reports' last', Runs (m.apply .stop).2 steps reports' last' →
        ∃ last, Runs (m.apply .drop).2 steps (reports'.map Report.outward) last ∧
          Parted m last last' := by
  refine ⟨report_parting m, fun steps => ⟨run_parted m steps, fun reports last hr => ?_,
    fun reports' last' hr => hr.parted_of_stop⟩⟩
  have hsound : (m.apply .drop).2.scheduler.Sound := (moves_apply h.sound .drop).sound h.sound
  exact ⟨hr.parted_of_drop, fun c hc deadline late send hp =>
    finishesTick_of_drop h (hr.moves hsound) hc hp⟩

namespace Simulation

/-- A reporter with a tick under way is dropped. The refresh that was just asked for is cancelled at
once, and the other cycle as its tick times out after 50 ms; a stop would have told of itself
besides. -/
theorem busyStart_is_dropped :
    busyStart.stopNotice = [⟨7, .reporterStopped⟩] ∧
      ((busyStart.apply .drop).2.run [.sleep 60]).2.scheduler.bench.log =
        [⟨50, .cancelled 1 .fastBringup⟩, ⟨50, .timedOut 1 .fastBringup 1⟩,
          ⟨7, .cancelled 2 .adHoc⟩] ++ busyStart.scheduler.bench.log ∧
      ((busyStart.apply .drop).2.run [.sleep 60]).1 =
        ((busyStart.apply .stop).2.run [.sleep 60]).1.map Report.outward ∧
      ∃ c ∈ busyStart.scheduler.live, c.phase = .waiting 0 0 0 ∧
        FinishesTick busyStart.scheduler
          ((busyStart.apply .drop).2.run [.sleep 60]).2.scheduler c 0 0 := by
  have reach : Reachable busyStart.scheduler := reachable_sampled _ _ _
  have sound : (busyStart.apply .drop).2.scheduler.Sound :=
    (moves_apply reach.sound .drop).sound reach.sound
  obtain ⟨alike, dropped, -⟩ := (dropping_is_stopping reach).2 [.sleep 60]
  have finishes := (dropped _ _ (runs_run sound [.sleep 60])).2 busyStart.scheduler.live[0]
    (by simp) 0 0 0 rfl
  exact ⟨by decide, by decide, alike.1, _, by simp, rfl, finishes⟩

end Simulation
end Heartbeat
