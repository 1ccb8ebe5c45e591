import Heartbeat.Proofs.Lines

/-!
# Heartbeat.Proofs.Undisturbed

Refreshes leave the main chain as it is.

* `Scheduler.chainLog`  — what the log says of the chain, without the numbers of its cycles.
* `Planned.isKept`      — a plan is a list of steps of which some refreshes may be left out.
* `Alongside`           — the relation of a run to one with fewer refreshes, kept by every step.
-/

namespace Heartbeat

/-- What the log says of the main chain, the first entry first, with every cycle numbered 0. -/
def Scheduler.chainLog (s : Scheduler) : List Entry :=
  ((s.trail (Line.chain.owns s)).map (Entry.renamed fun _ => 0)).reverse

/-- A step, and whether to leave it out; only a refresh can be. -/
structure Planned where
  step : Step
  omitted : Bool

def Planned.isKept (p : Planned) : Bool :=
  match p.step with
  | .refresh => !p.omitted
  | _ => true

theorem Planned.eq_refresh {p : Planned} (h : p.isKept = false) : p.step = .refresh := by
  unfold isKept at h
  split at h
  · assumption
  · cases h

namespace Simulation

open Scheduler

variable {built : Except ErrorChain Descriptor} {reply : Reply}
  {m m' m'' n n' n'' : Simulation} {step : Step} {returned returned' : Option Bool}

/-- A simulation and one with fewer refreshes so far. -/
structure Alongside (built : Except ErrorChain Descriptor) (reply : Reply) (m n : Simulation) :
    Prop where
  regular : m.scheduler.Regular built reply
  regular' : n.scheduler.Regular built reply
  facade : n.facade = m.facade
  dropped : n.dropped = m.dropped
  now : n.scheduler.bench.now = m.scheduler.bench.now
  chain : Line.chain.Agrees (fun _ => 0) m.scheduler n.scheduler

theorem Alongside.kept (h : Alongside built reply m n) (hs : ∀ ms, step ≠ .stopped ms)
    (ht : Takes m step returned m') (ht' : Takes n step returned' n') :
    Alongside built reply m' n' where
  regular := h.regular.moves (ht.moves h.regular.reachable.sound)
  regular' := h.regular'.moves (ht'.moves h.regular'.reachable.sound)
  facade := by rw [ht.facade_eq, ht'.facade_eq, h.facade]
  dropped := ht.dropped_eq ht' h.dropped
  now := by rw [ht.now_eq hs, ht'.now_eq hs, h.now]
  chain := agrees_takes h.chain (fun _ _ _ => rfl) h.regular h.regular' trivial trivial h.facade
    h.now hs ht ht'

theorem Alongside.omitted (h : Alongside built reply m n) (ht : Takes m .refresh returned m') :
    Alongside built reply m' n := by
  have hm := ht.moves h.regular.reachable.sound
  have hnow := ht.now_eq (by simp)
  cases ht
  exact ⟨h.regular.moves hm, h.regular', h.facade, h.dropped, h.now.trans hnow.symm,
    h.chain.refresh_left h.regular.reachable trivial fun _ _ => rfl⟩

theorem Alongside.lifecycle (h : Alongside built reply m' n') (returned returned' : Option Bool) :
    (m.report m' returned).lifecycle = (n.report n' returned').lifecycle := by
  simp only [report, h.dropped, h.chain.lifecycle]

theorem Alongside.runs {plan : List Planned} {reports reports' : List Report}
    (h : Alongside built reply m n) (hs : ∀ p ∈ plan, ∀ ms, p.step ≠ .stopped ms)
    (hr : Runs m (plan.map Planned.step) reports m')
    (hr' : Runs n ((plan.filter Planned.isKept).map Planned.step) reports' n') :
    Alongside built reply m' n' ∧
      ((plan.zip reports).filter (·.1.isKept)).map (·.2.lifecycle) =
        reports'.map (·.lifecycle) := by
  induction plan generalizing m n reports reports' with
  | nil =>
    cases hr
    cases hr'
    exact ⟨h, rfl⟩
  | cons p plan ih =>
    have hs' : ∀ q ∈ plan, ∀ ms, q.step ≠ .stopped ms := fun q hq =>
      hs q (List.mem_cons_of_mem p hq)
    cases hr with
    | cons ht hr =>
      cases hk : p.isKept with
      | false =>
        rw [List.filter_cons_of_neg (by simp [hk])] at hr'
        rw [p.eq_refresh hk] at ht
        obtain ⟨hend, hreports⟩ := ih (h.omitted ht) hs' hr hr'
        exact ⟨hend, by simpa [hk] using hreports⟩
      | true =>
        rw [List.filter_cons_of_pos hk] at hr'
        cases hr' with
        | cons ht' hr' =>
          have h' := h.kept (hs p (List.mem_cons_self ..)) ht ht'
          obtain ⟨hend, hreports⟩ := ih h' hs' hr hr'
          refine ⟨hend, ?_⟩
          simp only [List.zip_cons_cons, List.filter_cons, hk, if_true, List.map_cons, hreports]
          rw [h'.lifecycle]

end Simulation

open Scheduler Simulation

/-- **Refreshes do not disturb the main chain.** With one reply to all sends and one answer to all
calls for a descriptor, leaving out some of the refreshes of a run changes nothing that the log says
of the chain but the numbers of its cycles, and no lifecycle that another step reports. -/
theorem refreshes_leave_chain_alone {settings : Settings} {c : Cadence} {facade : Facade}
    {built : Except ErrorChain Descriptor} {reply : Reply} {plan : List Planned}
    {reports reports' : List Report} {m m' : Simulation}
    (word : settings.maxTries < UInt32.size) (accepted : settings.cadence = .ok c)
    (steps : ∀ p ∈ plan, ∀ ms, p.step ≠ .stopped ms)
    (run : Runs (constant facade c built reply) (plan.map Planned.step) reports m)
    (run' : Runs (constant facade c built reply) ((plan.filter Planned.isKept).map Planned.step) reports'
      m') :
    m.scheduler.chainLog = m'.scheduler.chainLog ∧
      ((plan.zip reports).filter (·.1.isKept)).map (·.2.lifecycle) =
        reports'.map (·.lifecycle) := by
  have hregular := regular_constant facade built reply word accepted
  have h : Alongside built reply (constant facade c built reply) (constant facade c built reply) :=
    ⟨hregular, hregular, rfl, rfl, rfl, agrees_self _ rfl⟩
  obtain ⟨hend, hreports⟩ := h.runs steps run run'
  refine ⟨?_, hreports⟩
  rw [chainLog, chainLog]
  exact congrArg List.reverse hend.chain.trail.symm

namespace Simulation

/-- A start that is answered 20 ms later, with a refresh on the way, one after the delivery, and a
stop. -/
def eagerPlan : List Planned :=
  [⟨.start, false⟩, ⟨.sleep 5, false⟩, ⟨.refresh, true⟩, ⟨.sleep 15, false⟩,
    ⟨.release .ack, false⟩, ⟨.sleep 90, false⟩, ⟨.refresh, true⟩, ⟨.sleep 20, false⟩,
    ⟨.stop, false⟩, ⟨.sleep 60, false⟩]

/-- With the refreshes there are four cycles, and without them two; the chain is the same. -/
theorem heldBack_chain_is_undisturbed :
    (heldBack.run (eagerPlan.map Planned.step)).2.scheduler.nextCycle = 5 ∧
      (heldBack.run ((eagerPlan.filter Planned.isKept).map Planned.step)).2.scheduler.nextCycle =
        3 ∧
      (heldBack.run (eagerPlan.map Planned.step)).2.scheduler.chainLog =
        (heldBack.run ((eagerPlan.filter Planned.isKept).map Planned.step)).2.scheduler.chainLog := by
  have word : (⟨10, 100, 2, 50⟩ : Settings).maxTries < UInt32.size := by decide
  have accepted : Settings.cadence ⟨10, 100, 2, 50⟩ = .ok brisk := rfl
  have sound : heldBack.scheduler.Sound :=
    (regular_constant .scheduler _ _ word accepted).reachable.sound
  have steps : ∀ p ∈ eagerPlan, ∀ ms, p.step ≠ .stopped ms := by simp [eagerPlan]
  refine ⟨by decide, by decide, ?_⟩
  exact (refreshes_leave_chain_alone word accepted steps (runs_run sound _) (runs_run sound _)).1

end Simulation
end Heartbeat
