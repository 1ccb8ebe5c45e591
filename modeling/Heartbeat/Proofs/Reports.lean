import Heartbeat.Proofs.Orders

/-!
# Heartbeat.Proofs.Reports

What is reported between two states, and runs of steps one after another.

* `report_events`, `report_sends` — a report tells of what has been added to the log and to the
  sends.
* `report_told`                   — and of nothing else, where only the log has been added to.
* `run_append`, `runs_append`     — a run of some steps goes on with others.
-/

namespace Heartbeat

theorem KeepsSends.times {now : Nat} {xs ys : List Sent} (h : KeepsSends now xs ys) :
    xs.map (·.time) <+: ys.map (·.time) := by
  rw [List.prefix_iff_getElem?]
  intro n hn
  rw [List.length_map] at hn
  obtain ⟨y, hy, htime, -⟩ := h n xs[n] (List.getElem?_eq_getElem hn)
  simp [hy, htime]

/-- When what is sent between two states is sent. -/
theorem Scheduler.Moves.times {s s' : Scheduler} (hm : s.Moves s') : ∃ more,
    s'.bench.transport.sends.map (·.time) = s.bench.transport.sends.map (·.time) ++ more := by
  obtain ⟨more, h⟩ := hm.grows.sends.times
  exact ⟨more, h.symm⟩

namespace Simulation

open Scheduler

variable {m m' n n' : Simulation} {returned : Option Bool} {steps more : List Step}
  {reports : List Report}

theorem report_events {new : List Entry}
    (h : m'.scheduler.bench.log = new ++ m.scheduler.bench.log) :
    (m.report m' returned).events = Entry.arrange new.reverse := by
  simp [report, h]

theorem report_sends {sent : List Nat} (h : m'.scheduler.bench.transport.sends.map (·.time) =
      m.scheduler.bench.transport.sends.map (·.time) ++ sent) :
    (m.report m' returned).sends = sent := by
  have hlen : m.scheduler.bench.transport.sends.length =
      (m.scheduler.bench.transport.sends.map (·.time)).length := by simp
  simp only [report]
  rw [List.map_drop, h, hlen, List.drop_left]

/-- Where nothing has been done but to add to the log, nothing else is reported. -/
theorem report_told {new : List Entry} (h : m'.scheduler.bench =
      { m.scheduler.bench with log := new ++ m.scheduler.bench.log }) (returned : Option Bool) :
    (m.report m' returned).sends = [] ∧
      (m.report m' returned).events = Entry.arrange new.reverse :=
  ⟨report_sends (by rw [h, List.append_nil]), report_events (congrArg Bench.log h)⟩

theorem run_append (m : Simulation) (steps more : List Step) :
    m.run (steps ++ more) =
      ((m.run steps).1 ++ ((m.run steps).2.run more).1, ((m.run steps).2.run more).2) := by
  induction steps generalizing m with
  | nil => rfl
  | cons step steps ih => simp only [List.cons_append, run, ih]

theorem length_run (m : Simulation) (steps : List Step) :
    (m.run steps).1.length = steps.length := by
  induction steps generalizing m with
  | nil => rfl
  | cons step steps ih => simp only [run, List.length_cons, ih]

theorem Runs.length (h : Runs m steps reports m') : reports.length = steps.length := by
  induction h with
  | nil => rfl
  | cons _ _ ih => rw [List.length_cons, List.length_cons, ih]

theorem runs_append : Runs m (steps ++ more) reports m' ↔ ∃ before after n,
    Runs m steps before n ∧ Runs n more after m' ∧ reports = before ++ after := by
  constructor
  · intro h
    induction steps generalizing m reports with
    | nil => exact ⟨[], reports, m, .nil, h, rfl⟩
    | cons step steps ih =>
      cases h with
      | cons ht hr =>
        obtain ⟨before, after, n, hbefore, hafter, rfl⟩ := ih hr
        exact ⟨_ :: before, after, n, .cons ht hbefore, hafter, rfl⟩
  · rintro ⟨before, after, n, hr, hr', rfl⟩
    induction hr with
    | nil => exact hr'
    | cons ht _ ih => exact .cons ht (ih hr')

end Simulation
end Heartbeat
