import Heartbeat.Proofs.Reports

/-!
# Heartbeat.Proofs.Unread

The log is written and never read.

* `withLog` — a scheduler, or a simulation, with another log.
* `Unread`  — what is done does not depend on the log, and adds the same entries to any.
* `Turn.unread`, `unread_runFor`, `Passes.unread` — so it is with a poll, and with time that passes
  in the order of arming or in any other.
* `Simulation.run_withLog`, `Simulation.Runs.withLog` — so a run reports the same whatever was told
  before.
-/

namespace Heartbeat

namespace Scheduler

variable {s s' s'' : Scheduler} {l r : List LiveCycle} {c : LiveCycle} {target : Nat}

def withLog (s : Scheduler) (log : List Entry) : Scheduler :=
  { s with bench := { s.bench with log } }

/-- What leads from `s` to `s'` also does from `s` with any other log, and adds the same to it. -/
def Unread (leads : Scheduler → Scheduler → Prop) (s s' : Scheduler) : Prop :=
  ∃ new, s'.bench.log = new ++ s.bench.log ∧
    ∀ log, leads (s.withLog log) (s'.withLog (new ++ log))

theorem Unread.trans {p q pq : Scheduler → Scheduler → Prop} (h : Unread p s s')
    (h' : Unread q s' s'') (hpq : ∀ {s s' s''}, p s s' → q s' s'' → pq s s'') :
    Unread pq s s'' := by
  obtain ⟨new, hlog, h⟩ := h
  obtain ⟨more, hlog', h'⟩ := h'
  refine ⟨more ++ new, by rw [hlog', hlog, List.append_assoc], fun log => ?_⟩
  rw [List.append_assoc]
  exact hpq (h log) (h' _)

theorem Turn.unread (ht : Turn s l c r s') : Unread (Turn · l c r ·) s s' := by
  cases ht with
  | cancelled hp hs => exact ⟨[_], rfl, fun _ => .cancelled hp hs⟩
  | exhausted hp hs ha => exact ⟨[_], rfl, fun _ => .exhausted hp hs ha⟩
  | unsent hp hs ha hf => exact ⟨[_], rfl, fun _ => .unsent hp hs ha hf⟩
  | sent hp hs ha hf => exact ⟨[_], rfl, fun _ => .sent hp hs ha hf⟩
  | retried hp ho hf => exact ⟨[_], rfl, fun _ => .retried hp ho hf⟩
  | delivered hp ho hk => exact ⟨[_], rfl, fun _ => .delivered hp ho hk⟩
  | rearmed hp ho hk hs => exact ⟨[_, _], rfl, fun _ => .rearmed hp ho hk hs⟩
  | notRearmed hp ho hk hs => exact ⟨[_, _], rfl, fun _ => .notRearmed hp ho hk hs⟩

theorem unread_pollAt (hl : s.live = l ++ c :: r) (time : Nat) :
    Unread (fun s s' => s.pollAt l.length time = s') s (s.pollAt l.length time) := by
  have ht : Turn (s.wait time) l c r (s.pollAt l.length time) := turn_of_poll (s := s.wait time) hl
  obtain ⟨new, hlog, ht'⟩ := ht.unread
  exact ⟨new, hlog, fun log => ((ht' log).eq_poll hl).symm⟩

/-! ## Time passes alike -/

theorem unread_runFor (halt : Scheduler → Bool)
    (hh : ∀ s log, halt (withLog s log) = halt s) (target fuel : Nat) (s : Scheduler) :
    Unread (fun s s' => runFor halt target fuel s = s') s (runFor halt target fuel s) := by
  induction fuel generalizing s with
  | zero => exact ⟨[], rfl, fun _ => rfl⟩
  | succ fuel ih =>
    have hready : ∀ log, (s.withLog log).nextReady target = s.nextReady target := fun _ => rfl
    simp only [Unread, runFor, hh, hready]
    split
    · exact ⟨[], rfl, fun _ => rfl⟩
    · cases hr : s.nextReady target with
      | none => exact ⟨[], rfl, fun _ => rfl⟩
      | some x =>
        obtain ⟨i, time⟩ := x
        obtain ⟨l, c, r, hl, rfl, -⟩ := nextReady_some hr
        exact (unread_pollAt hl time).trans (ih _) fun h h' => h ▸ h'

theorem unread_sleep (ms : Nat) (s : Scheduler) :
    Unread (fun s s' => s.sleep ms = s') s (s.sleep ms) := by
  obtain ⟨new, hlog, hrun⟩ := unread_runFor (fun _ => false) (fun _ _ => rfl)
    (s.bench.now + ms) (s.work (s.bench.now + ms)) s
  exact ⟨new, hlog, fun log => congrArg (wait · (s.bench.now + ms)) (hrun log)⟩

theorem unread_awaitDrained (ms : Nat) (s : Scheduler) :
    Unread (fun t t' => t.awaitDrained ms = ((s.awaitDrained ms).1, t')) s
      (s.awaitDrained ms).2 := by
  have hdrained : ∀ (s : Scheduler) log, (s.withLog log).isDrained = s.isDrained := fun _ _ => rfl
  obtain ⟨new, hlog, hrun⟩ := unread_runFor isDrained hdrained (s.bench.now + ms)
    (s.work (s.bench.now + ms)) s
  have hrun' : ∀ log, (s.withLog log).runUntil isDrained ((s.withLog log).bench.now + ms) =
    (s.runUntil isDrained (s.bench.now + ms)).withLog (new ++ log) := hrun
  simp only [Unread, awaitDrained, hdrained, hrun']
  split
  · exact ⟨[], rfl, fun _ => rfl⟩
  · split
    · exact ⟨new, hlog, fun log => if_pos ‹_›⟩
    · exact ⟨new, hlog, fun log => if_neg ‹_›⟩

theorem Advances.unread (ha : Advances target s s') : Unread (Advances target) s s' := by
  cases ha with
  | poll hl hw hn =>
    obtain ⟨new, hlog, hpoll⟩ := unread_pollAt hl (s.wakeTime _)
    refine ⟨new, hlog, fun log => ?_⟩
    rw [← hpoll]
    exact .poll (s := s.withLog log) hl hw hn

theorem Passes.unread (hp : Passes target s s') : Unread (Passes target) s s' := by
  induction hp with
  | rest hrest => exact ⟨[], rfl, fun _ => .rest hrest⟩
  | step ha _ ih => exact ha.unread.trans ih .step

end Scheduler

namespace Simulation

open Scheduler

variable {m m' : Simulation} {step : Step} {steps : List Step} {returned : Option Bool}
  {reports : List Report}

def withLog (m : Simulation) (log : List Entry) : Simulation :=
  { m with scheduler := m.scheduler.withLog log }

theorem apply_withLog (m : Simulation) (step : Step) : ∃ new,
    (m.apply step).2.scheduler.bench.log = new ++ m.scheduler.bench.log ∧ ∀ log,
      (m.withLog log).apply step = ((m.apply step).1, (m.apply step).2.withLog (new ++ log)) := by
  obtain ⟨facade, s, dropped⟩ := m
  cases step with
  | start | refresh | stop | drop =>
    obtain ⟨cadence, bench, lifecycle, nextCycle, live⟩ := s
    cases lifecycle <;> cases facade <;>
      first | exact ⟨[], rfl, fun _ => rfl⟩ | exact ⟨[_], rfl, fun _ => rfl⟩
  | release r => exact ⟨[], rfl, fun _ => rfl⟩
  | sleep ms =>
    obtain ⟨new, hlog, h⟩ := unread_sleep ms s
    exact ⟨new, hlog, fun log => congrArg (none, Simulation.mk facade · dropped) (h log)⟩
  | stopped ms =>
    obtain ⟨new, hlog, h⟩ := unread_awaitDrained ms s
    exact ⟨new, hlog, fun log => congrArg (Prod.map some (Simulation.mk facade · dropped)) (h log)⟩

theorem Takes.withLog (ht : Takes m step returned m') : ∃ new,
    m'.scheduler.bench.log = new ++ m.scheduler.bench.log ∧ ∀ log,
      Takes (m.withLog log) step returned (m'.withLog (new ++ log)) := by
  have call : ∀ {step}, (∀ m, Takes m step (m.apply step).1 (m.apply step).2) → ∃ new,
      (m.apply step).2.scheduler.bench.log = new ++ m.scheduler.bench.log ∧ ∀ log,
        Takes (m.withLog log) step (m.apply step).1 ((m.apply step).2.withLog (new ++ log)) := by
    intro step hcall
    obtain ⟨new, hlog, h⟩ := apply_withLog m step
    refine ⟨new, hlog, fun log => ?_⟩
    have ht := hcall (m.withLog log)
    rwa [h] at ht
  cases ht with
  | start => exact call fun _ => .start
  | stop => exact call fun _ => .stop
  | refresh => exact call fun _ => .refresh
  | drop => exact call fun _ => .drop
  | release r => exact call fun _ => .release r
  | sleep hp =>
    obtain ⟨new, hlog, hp⟩ := hp.unread
    exact ⟨new, hlog, fun log => .sleep (m := m.withLog log) (hp log)⟩
  | drained hd => exact ⟨[], rfl, fun _ => .drained hd⟩
  | drains hd hp hs hlt =>
    obtain ⟨new, hlog, hp⟩ := hp.unread
    exact ⟨new, hlog, fun log => .drains (m := m.withLog log) hd (hp log) hs hlt⟩
  | waitsInVain hd hp hnot =>
    obtain ⟨new, hlog, hp⟩ := hp.unread
    exact ⟨new, hlog, fun log => .waitsInVain (m := m.withLog log) hd (hp log) hnot⟩

theorem report_withLog {new : List Entry}
    (h : m'.scheduler.bench.log = new ++ m.scheduler.bench.log) (log : List Entry) :
    (m.withLog log).report (m'.withLog (new ++ log)) returned = m.report m' returned := by
  have hevents : ((m.withLog log).report (m'.withLog (new ++ log)) returned).events =
      (m.report m' returned).events := (report_events rfl).trans (report_events h).symm
  rw [report, report, Report.mk.injEq]
  exact ⟨rfl, rfl, rfl, rfl, rfl, hevents⟩

theorem run_withLog (m : Simulation) (steps : List Step) : ∃ new,
    (m.run steps).2.scheduler.bench.log = new ++ m.scheduler.bench.log ∧ ∀ log,
      (m.withLog log).run steps = ((m.run steps).1, (m.run steps).2.withLog (new ++ log)) := by
  induction steps generalizing m with
  | nil => exact ⟨[], rfl, fun _ => rfl⟩
  | cons step steps ih =>
    obtain ⟨new, hlog, h⟩ := apply_withLog m step
    obtain ⟨more, hlog', h'⟩ := ih (m.apply step).2
    refine ⟨more ++ new, ?_, fun log => ?_⟩
    · rw [List.append_assoc, ← hlog]
      exact hlog'
    · simp only [run, Simulation.step, h, h', report_withLog hlog, List.append_assoc]

theorem Runs.withLog (hr : Runs m steps reports m') : ∃ new,
    m'.scheduler.bench.log = new ++ m.scheduler.bench.log ∧ ∀ log,
      Runs (m.withLog log) steps reports (m'.withLog (new ++ log)) := by
  induction hr with
  | nil => exact ⟨[], rfl, fun _ => .nil⟩
  | cons ht _ ih =>
    obtain ⟨new, hlog, ht⟩ := ht.withLog
    obtain ⟨more, hlog', hr⟩ := ih
    refine ⟨more ++ new, by rw [hlog', hlog, List.append_assoc], fun log => ?_⟩
    rw [List.append_assoc, ← report_withLog hlog log]
    exact .cons (ht log) (hr _)

end Simulation
end Heartbeat
