import Heartbeat.Proofs.Lifecycles
import Heartbeat.Proofs.Unread

/-!
# Heartbeat.Proofs.Refusals

Calls that are refused leave no trace but the entry that tells of them.

* `Item`       — a step of a plan, or a call that is put in.
* `withExtras` — the reports of a plan with those of refused calls put in.
* `Annotated`  — two ways of going on that differ in how many entries the log has come to have.
* `run_extras`, `Runs.without_extras`, `Runs.with_extras` — a run with refused calls is the run
  without them, but for what these report.
-/

namespace Heartbeat

/-- A step of a plan, or a call that is put in besides. -/
inductive Item where
  | own (step : Step)
  | extra (call : Call)

namespace Item

def step : Item → Step
  | own step => step
  | extra call => call.step

def own? : Item → Option Step
  | own step => some step
  | extra _ => none

def isExtra : Item → Bool
  | own _ => false
  | extra _ => true

end Item

/-- The calls that are put into a plan are refused where they are made. -/
def Lifecycle.refuses : Lifecycle → List Item → Bool
  | _, [] => true
  | state, .own step :: plan => (state.after step).refuses plan
  | state, .extra call :: plan => call.isRefused state && state.refuses plan

/-- What a call that is ignored reports after another report. -/
def Report.ignoring (last : Report) (e : Event) : Report :=
  { last with returned := some false, sends := [], events := [⟨last.time, e⟩] }

/-- The reports of a plan, from those of its own steps. -/
def withExtras : Lifecycle → Report → List Item → List Report → List Report
  | state, last, .extra call :: plan, reports =>
    last.ignoring (call.ignored state) :: withExtras state last plan reports
  | state, _, .own step :: plan, r :: reports => r :: withExtras (state.after step) r plan reports
  | _, _, _, _ => []

namespace Simulation

open Scheduler

variable {m m' n n' : Simulation} {step : Step} {plan : List Item} {returned : Option Bool}
  {reports reports' : List Report} {call : Call} {last : Report} {count : Nat}

/-- Two ways of going on from `m` that come to the same, but that some more entries were added to
the log of the second one. -/
def Annotated (count : Nat) (m n n' : Simulation) : Prop :=
  ∃ new new', n.scheduler.bench.log = new ++ m.scheduler.bench.log ∧
    n' = n.withLog (new' ++ m.scheduler.bench.log) ∧
    new.Sublist new' ∧ new'.length = new.length + count

theorem Annotated.refl (m : Simulation) : Annotated 0 m m m :=
  ⟨[], [], rfl, rfl, .refl _, rfl⟩

theorem Annotated.since {new : List Entry}
    (hlog : m'.scheduler.bench.log = new ++ m.scheduler.bench.log)
    (h : Annotated count m' n n') : Annotated count m n n' := by
  obtain ⟨more, more', hn, rfl, hsub, hlen⟩ := h
  refine ⟨more ++ new, more' ++ new, by rw [hn, hlog, List.append_assoc], ?_,
    hsub.append_right new, ?_⟩
  · rw [hlog, List.append_assoc]
  · simp only [List.length_append, hlen]
    omega

/-- One more entry at the beginning. -/
theorem Annotated.noted {new : List Entry} (h : Annotated count m n n')
    (hlog : n'.scheduler.bench.log = new ++ m.scheduler.bench.log) (e : Entry) :
    Annotated (count + 1) m n (n'.withLog (new ++ e :: m.scheduler.bench.log)) := by
  obtain ⟨older, older', hn, rfl, hsub, hlen⟩ := h
  obtain rfl : older' = new := List.append_cancel_right hlog
  refine ⟨older, older' ++ [e], hn, ?_, hsub.trans (List.sublist_append_left _ _), ?_⟩
  · rw [List.append_assoc]
    rfl
  · rw [List.length_append, hlen]
    rfl

/-! ## A refused call -/

/-- What tells of a call that is refused now. -/
def refusal (m : Simulation) (call : Call) : Entry :=
  ⟨m.scheduler.bench.now, call.ignored m.scheduler.lifecycle⟩

def refusing (m : Simulation) (call : Call) : Simulation :=
  m.withLog (m.refusal call :: m.scheduler.bench.log)

theorem apply_refused (h : call.isRefused m.scheduler.lifecycle = true) :
    m.apply call.step = (some false, m.refusing call) := by
  obtain ⟨facade, ⟨cadence, bench, lifecycle, nextCycle, live⟩, dropped⟩ := m
  cases call <;> cases lifecycle <;> first | rfl | cases h

theorem takes_refused (h : call.isRefused m.scheduler.lifecycle = true) :
    Takes m call.step returned m' ↔ returned = some false ∧ m' = m.refusing call := by
  have happly := apply_refused h
  constructor
  · intro ht
    cases call <;> cases ht <;> exact Prod.ext_iff.mp happly
  · rintro ⟨rfl, rfl⟩
    have ht : Takes m call.step (m.apply call.step).1 (m.apply call.step).2 := by
      cases call
      · exact .start
      · exact .refresh
      · exact .stop
    rwa [happly] at ht

theorem report_refused (m : Simulation) (call : Call) (returned : Option Bool) :
    m.report (m.refusing call) (some false) =
      (m.report m returned).ignoring (call.ignored m.scheduler.lifecycle) := by
  have htold : (m.refusing call).scheduler.bench =
      { m.scheduler.bench with log := [m.refusal call] ++ m.scheduler.bench.log } := rfl
  obtain ⟨hsends, hevents⟩ := report_told htold (some false)
  have hone : Entry.arrange [m.refusal call].reverse = [m.refusal call] := by simp [Entry.arrange]
  rw [hone] at hevents
  rw [report, report, Report.ignoring, Report.mk.injEq]
  exact ⟨rfl, rfl, rfl, rfl, hsends, hevents⟩

/-! ## Runs with refused calls -/

/-- The calls are made one by one: the rest of the run is the same after a refused one, as it only
adds to the log, which is not read. -/
theorem run_extras (h : m.scheduler.lifecycle.refuses plan = true)
    (hlast : last.ignoring = (m.report m none).ignoring) :
    (m.run (plan.map Item.step)).1 =
        withExtras m.scheduler.lifecycle last plan (m.run (plan.filterMap Item.own?)).1 ∧
      Annotated (plan.countP Item.isExtra) m (m.run (plan.filterMap Item.own?)).2
        (m.run (plan.map Item.step)).2 := by
  induction plan generalizing m last with
  | nil => exact ⟨rfl, .refl m⟩
  | cons item plan ih =>
    cases item with
    | own step =>
      obtain ⟨new, hlog, -⟩ := apply_withLog m step
      have h' : (m.apply step).2.scheduler.lifecycle.refuses plan = true := by
        rw [lifecycle_apply]
        exact h
      have hlast : (m.step step).1.ignoring =
          ((m.apply step).2.report (m.apply step).2 none).ignoring := rfl
      obtain ⟨hreports, hend⟩ := ih h' hlast
      rw [lifecycle_apply] at hreports
      exact ⟨congrArg _ hreports, hend.since hlog⟩
    | extra call =>
      simp only [Lifecycle.refuses, Bool.and_eq_true] at h
      obtain ⟨hreports, hend⟩ := ih h.2 hlast
      obtain ⟨new, hlog, hnoted⟩ := run_withLog m (plan.map Item.step)
      have hrefusing := hnoted (m.refusal call :: m.scheduler.bench.log)
      have hrun : m.run ((Item.extra call :: plan).map Item.step) =
          (last.ignoring (call.ignored m.scheduler.lifecycle) :: (m.run (plan.map Item.step)).1,
            (m.run (plan.map Item.step)).2.withLog
              (new ++ m.refusal call :: m.scheduler.bench.log)) := by
        rw [hlast, ← report_refused]
        simp only [List.map_cons, Item.step, run, Simulation.step, apply_refused h.1]
        rw [refusing, hrefusing]
      rw [hrun, List.countP_cons_of_pos rfl]
      exact ⟨congrArg _ hreports, hend.noted hlog _⟩

/-- A run with calls that are refused is a run without them, but for what they report. -/
theorem Runs.without_extras (hr : Runs m (plan.map Item.step) reports' n')
    (h : m.scheduler.lifecycle.refuses plan = true)
    (hlast : last.ignoring = (m.report m none).ignoring) :
    ∃ reports n, Runs m (plan.filterMap Item.own?) reports n ∧
      reports' = withExtras m.scheduler.lifecycle last plan reports ∧
      Annotated (plan.countP Item.isExtra) m n n' := by
  induction plan generalizing m last reports' n' with
  | nil =>
    cases hr
    exact ⟨[], m, .nil, rfl, .refl m⟩
  | cons item plan ih =>
    cases hr with
    | @cons _ m₁ _ _ _ returned reports' ht hr =>
      cases item with
      | own step =>
        obtain ⟨new, hlog, -⟩ := ht.withLog
        have h' : m₁.scheduler.lifecycle.refuses plan = true := by
          rw [ht.lifecycle_eq]
          exact h
        have hlast : (m.report m₁ returned).ignoring = (m₁.report m₁ none).ignoring := rfl
        obtain ⟨reports, n, hown, hreports, hend⟩ := ih hr h' hlast
        rw [ht.lifecycle_eq] at hreports
        exact ⟨_, n, .cons ht hown, congrArg _ hreports, hend.since hlog⟩
      | extra call =>
        simp only [Lifecycle.refuses, Bool.and_eq_true] at h
        obtain ⟨rfl, rfl⟩ := (takes_refused h.1).mp ht
        obtain ⟨new, hlog, hwithout⟩ := hr.withLog
        obtain ⟨reports, n, hown, hreports, hend⟩ := ih (hwithout m.scheduler.bench.log) h.2 hlast
        refine ⟨reports, n, hown, ?_, ?_⟩
        · rw [report_refused m call none, ← hlast, hreports]
          rfl
        · have hsame : n'.withLog (new ++ (m.refusing call).scheduler.bench.log) = n' := by
            rw [← hlog]
            rfl
          rw [List.countP_cons_of_pos rfl, ← hsame]
          exact hend.noted rfl (m.refusal call)

/-- Calls that are refused can be put into any run. -/
theorem Runs.with_extras (hr : Runs m (plan.filterMap Item.own?) reports n)
    (h : m.scheduler.lifecycle.refuses plan = true)
    (hlast : last.ignoring = (m.report m none).ignoring) :
    ∃ n', Runs m (plan.map Item.step) (withExtras m.scheduler.lifecycle last plan reports) n' ∧
      Annotated (plan.countP Item.isExtra) m n n' := by
  induction plan generalizing m last reports with
  | nil =>
    cases hr
    exact ⟨_, .nil, .refl _⟩
  | cons item plan ih =>
    cases item with
    | own step =>
      cases hr with
      | @cons _ m₁ _ _ _ returned reports ht hr =>
        obtain ⟨new, hlog, -⟩ := ht.withLog
        have h' : m₁.scheduler.lifecycle.refuses plan = true := by
          rw [ht.lifecycle_eq]
          exact h
        have hlast : (m.report m₁ returned).ignoring = (m₁.report m₁ none).ignoring := rfl
        obtain ⟨n', hall, hend⟩ := ih hr h' hlast
        rw [ht.lifecycle_eq] at hall
        exact ⟨n', .cons ht hall, hend.since hlog⟩
    | extra call =>
      simp only [Lifecycle.refuses, Bool.and_eq_true] at h
      obtain ⟨n', hall, hend⟩ := ih hr h.2 hlast
      obtain ⟨new, hlog, hnoted⟩ := hall.withLog
      have ht : Takes m call.step (some false) (m.refusing call) :=
        (takes_refused h.1).mpr ⟨rfl, rfl⟩
      have hall' := Runs.cons ht (hnoted _)
      rw [report_refused m call none, ← hlast] at hall'
      refine ⟨_, hall', ?_⟩
      rw [List.countP_cons_of_pos rfl]
      exact hend.noted hlog _

end Simulation

open Simulation

/-- **Refused calls are no-ops.** Calls that are refused where they are put in report that they
return false, and an entry that tells so; all other reports are those of the run without them, and
so is what the run comes to, but for these entries in the log. It is so in the order of arming, and
in any other: each run with the calls comes from one without, and the other way round. Every run
accepts at most a start and then at most a stop, and what it reports of the lifecycle only moves
on. -/
theorem refused_calls_are_no_ops {m : Simulation} {plan : List Item}
    (refused : m.scheduler.lifecycle.refuses plan = true) :
    ((m.run (plan.map Item.step)).1 =
        withExtras m.scheduler.lifecycle (m.report m none) plan
          (m.run (plan.filterMap Item.own?)).1 ∧
      Annotated (plan.countP Item.isExtra) m (m.run (plan.filterMap Item.own?)).2
        (m.run (plan.map Item.step)).2) ∧
    (∀ reports' n', Runs m (plan.map Item.step) reports' n' →
      ∃ reports n, Runs m (plan.filterMap Item.own?) reports n ∧
        reports' = withExtras m.scheduler.lifecycle (m.report m none) plan reports ∧
        Annotated (plan.countP Item.isExtra) m n n') ∧
    (∀ reports n, Runs m (plan.filterMap Item.own?) reports n →
      ∃ n', Runs m (plan.map Item.step)
          (withExtras m.scheduler.lifecycle (m.report m none) plan reports) n' ∧
        Annotated (plan.countP Item.isExtra) m n n') ∧
    ∀ steps reports n, Runs m steps reports n →
      (steps.zip reports).filterMap (fun x => x.1.accepted? x.2.returned) <+:
        m.scheduler.lifecycle.ahead ∧
      (m.scheduler.lifecycle :: reports.filterMap (·.lifecycle)).IsChain Lifecycle.Next :=
  ⟨run_extras refused rfl, fun _ _ hr => hr.without_extras refused rfl,
    fun _ _ hr => hr.with_extras refused rfl, fun _ _ _ hr => ⟨hr.accepted, hr.next⟩⟩

namespace Simulation

/-- A plan with refused calls before the start, with a tick under way, and after the stop. -/
def insistent : List Item :=
  [.extra .refresh, .extra .stop, .own .start, .own (.sleep 5), .extra .start, .own (.sleep 65),
    .own .stop, .extra .stop, .extra .refresh, .own (.sleep 60), .extra .start]

/-- With a request that is never answered and others that are rejected. -/
theorem insistent_calls_are_no_ops :
    Lifecycle.created.refuses insistent = true ∧
      ((sample [.hold 0] .nack).run (insistent.map Item.step)).1.map (·.returned) =
        [some false, some false, some true, none, some false, none, some true, some false,
          some false, none, some false] ∧
      ((sample [.hold 0] .nack).run (insistent.map Item.step)).1.map (·.sends) =
        [[], [], [], [0], [], [50, 60, 70], [], [], [], [], []] ∧
      ((sample [.hold 0] .nack).run (insistent.map Item.step)).1 =
        withExtras .created ((sample [.hold 0] .nack).report (sample [.hold 0] .nack) none)
          insistent ((sample [.hold 0] .nack).run (insistent.filterMap Item.own?)).1 := by
  have refused : Lifecycle.created.refuses insistent = true := by decide
  exact ⟨refused, by decide, by decide,
    (refused_calls_are_no_ops (m := sample [.hold 0] .nack) refused).1.1⟩

end Simulation
end Heartbeat
