import Heartbeat.Proofs.Flow

/-!
# Heartbeat.Proofs.Orders

Runs in which cycles that are ready at one time are polled in any order.

* `Advances`   — one poll, of any cycle that no other is ready before.
* `Passes`     — all that is ready by a target has been polled, in some order.
* `Takes`      — one step of a simulation, and what it returns.
* `Runs`       — a list of steps, with their reports.
* `runs_run`   — polling the cycle armed first is one such order.
-/

namespace Heartbeat

namespace Scheduler

/-- One poll, of any cycle that no other is ready before. -/
inductive Advances (target : Nat) (s : Scheduler) : Scheduler → Prop where
  | poll {l r : List LiveCycle} {c : LiveCycle} :
      s.live = l ++ c :: r → s.wakeTime c ≤ target →
      (∀ x ∈ s.live, s.wakeTime c ≤ max s.bench.now (s.wakeTime x)) →
      Advances target s (s.pollAt l.length (s.wakeTime c))

/-- All that is ready by the target has been polled, in some order. -/
inductive Passes (target : Nat) : Scheduler → Scheduler → Prop where
  | rest {s : Scheduler} : (∀ c ∈ s.live, target < s.wakeTime c) → Passes target s s
  | step {s s' s'' : Scheduler} :
      Advances target s s' → Passes target s' s'' → Passes target s s''

/-! ## Polls are turns -/

/-- A turn is what the poll does, so there is one for each cycle. -/
theorem Turn.eq_poll {s s' : Scheduler} {l r : List LiveCycle} {c : LiveCycle}
    (ht : Turn s l c r s') (hl : s.live = l ++ c :: r) : s' = s.poll l.length := by
  have hi : s.live[l.length]? = some c := by simp [hl]
  have herase : s.live.eraseIdx l.length = l ++ r := by rw [hl, eraseIdx_length]
  have hm : c.attempt.count.maxTries = c.attempt.maxTries := rfl
  have hc : c.attempt.count.cycle = c.attempt.cycle := rfl
  have hk : c.attempt.count.kind = c.attempt.kind := rfl
  cases ht with
  | cancelled hp hs => simp [poll, hi, hp, isStopped, hs, remove, herase, note]
  | exhausted hp hs ha =>
    simp [poll, hi, hp, isStopped, hs, beginTick, Attempt.start, hm, ha, remove, herase, note, hc,
      hk]
  | unsent hp hs ha hf =>
    simp [poll, hp, isStopped, hs, beginTick, Attempt.start, hm, ha, Bench.send, hf, endTick,
      Attempt.report, Outcome.isSuccess, Outcome.fail, replace, hl, Bench.note]
  | sent hp hs ha hf =>
    simp [poll, hp, isStopped, hs, beginTick, Attempt.start, hm, ha, Bench.send, hf, replace, hl,
      Bench.note, hc]
  | retried hp ho hf =>
    simp [poll, hp, ho, endTick, Attempt.report, hf, replace, hl, note]
  | delivered hp ho hk' =>
    simp [poll, hi, hp, ho, endTick, Attempt.report, Outcome.isSuccess, hk', complete, remove,
      herase, note]
  | rearmed hp ho hk' hs =>
    simp [poll, hi, hp, ho, endTick, Attempt.report, Outcome.isSuccess, hk', complete, hs, remove,
      herase, note]
  | notRearmed hp ho hk' hs =>
    simp [poll, hi, hp, ho, endTick, Attempt.report, Outcome.isSuccess, hk', complete, hs, remove,
      herase, note]

theorem Turn.unique {s s₁ s₂ : Scheduler} {l r : List LiveCycle} {c : LiveCycle}
    (hl : s.live = l ++ c :: r) (h₁ : Turn s l c r s₁) (h₂ : Turn s l c r s₂) : s₁ = s₂ :=
  (h₁.eq_poll hl).trans (h₂.eq_poll hl).symm

/-- An advance lets time pass, as no cycle is ready before, and polls. -/
theorem Advances.turn {target : Nat} {s s' : Scheduler} (h : Advances target s s') :
    ∃ l c r, s.live = l ++ c :: r ∧ s.wakeTime c ≤ target ∧
      (∀ x ∈ s.live, s.wakeTime c ≤ max s.bench.now (s.wakeTime x)) ∧
      Turn (s.wait (s.wakeTime c)) l c r s' := by
  cases h with
  | @poll l r c hl hw hn => exact ⟨l, c, r, hl, hw, hn, turn_of_poll (s := s.wait _) hl⟩

/-- Time can pass up to where a cycle is ready, be it long ago. -/
theorem moves_wait {s : Scheduler} {time : Nat}
    (hn : ∀ x ∈ s.live, time ≤ max s.bench.now (s.wakeTime x)) : s.Moves (s.wait time) := by
  by_cases hle : time ≤ s.bench.now
  · have hs : s.wait time = s := by simp [wait, Bench.moveTo, Nat.max_eq_left hle]
    rw [hs]
    exact .refl
  · refine .single (.wait _ fun x hx => ?_)
    have := hn x hx
    omega

theorem Advances.moves {target : Nat} {s s' : Scheduler} (h : Advances target s s') :
    s.Moves s' := by
  cases h with
  | @poll l r c hl _ hn =>
    have hpoll : Move (s.wait (s.wakeTime c)) ((s.wait (s.wakeTime c)).poll l.length) :=
      .poll hl (Nat.le_max_right _ _)
    exact .tail (moves_wait hn) hpoll

theorem Passes.moves {target : Nat} {s s' : Scheduler} (h : Passes target s s') :
    s.Moves s' := by
  induction h with
  | rest => exact .refl
  | step ha _ ih => exact ha.moves.trans ih

theorem Passes.atRest {target : Nat} {s s' : Scheduler} (h : Passes target s s') :
    ∀ c ∈ s'.live, target < s'.wakeTime c := by
  induction h with
  | rest h => exact h
  | step _ _ ih => exact ih

theorem Advances.now_le {target : Nat} {s s' : Scheduler} (h : Advances target s s')
    (hn : s.bench.now ≤ target) : s'.bench.now ≤ target := by
  obtain ⟨l, c, r, _, hw, _, ht⟩ := h.turn
  rw [ht.now_eq]
  exact Nat.max_le.mpr ⟨hn, hw⟩

theorem Passes.now_le {target : Nat} {s s' : Scheduler} (h : Passes target s s')
    (hn : s.bench.now ≤ target) : s'.bench.now ≤ target := by
  induction h with
  | rest => exact hn
  | step ha _ ih => exact ih (ha.now_le hn)

/-! ## The order of arming -/

theorem advances_of_nextReady {s : Scheduler} {target i time : Nat}
    (h : s.nextReady target = some (i, time)) : Advances target s (s.pollAt i time) := by
  obtain ⟨l, c, r, hl, rfl, rfl, hle, hall⟩ := nextReady_some h
  refine .poll hl hle ?_
  intro x hx
  exact Nat.le_trans (hall x hx) (Nat.le_max_right _ _)

/-- What is halted when nothing is live is halted too late to matter. -/
theorem passes_runFor {halt : Scheduler → Bool} (hh : ∀ s, halt s = true → s.live = [])
    {target : Nat} (fuel : Nat) {s : Scheduler} (h : s.Sound) (hn : s.bench.now ≤ target)
    (hf : s.work target ≤ fuel) : Passes target s (runFor halt target fuel s) := by
  induction fuel generalizing s with
  | zero =>
    refine .rest ?_
    cases hr : s.nextReady target with
    | none => exact fun c hc => lt_wakeTime_of_nextReady hr hc
    | some x =>
      have := (pollAt_spec h hn hr).2.2
      omega
  | succ fuel ih =>
    simp only [runFor]
    split
    · rename_i hs
      refine .rest ?_
      rw [hh s hs]
      intro c hc
      cases hc
    · cases hr : s.nextReady target with
      | none => exact .rest fun c hc => lt_wakeTime_of_nextReady hr hc
      | some x =>
        obtain ⟨i, time⟩ := x
        obtain ⟨hm, hn', hlt⟩ := pollAt_spec h hn hr
        exact .step (advances_of_nextReady hr) (ih (hm.sound h) hn' (by omega))

end Scheduler

namespace Simulation

open Scheduler

/-- One step, and what it returns. While time passes the order of the polls is left open. -/
inductive Takes (m : Simulation) : Step → Option Bool → Simulation → Prop where
  | start : Takes m .start (m.apply .start).1 (m.apply .start).2
  | stop : Takes m .stop (m.apply .stop).1 (m.apply .stop).2
  | refresh : Takes m .refresh (m.apply .refresh).1 (m.apply .refresh).2
  | release (r : Reply) : Takes m (.release r) (m.apply (.release r)).1 (m.apply (.release r)).2
  | drop : Takes m .drop (m.apply .drop).1 (m.apply .drop).2
  | sleep {ms : Nat} {s : Scheduler} :
      Passes (m.scheduler.bench.now + ms) m.scheduler s →
      Takes m (.sleep ms) none { m with scheduler := s.wait (m.scheduler.bench.now + ms) }
  | drained {ms : Nat} : m.scheduler.isDrained = true → Takes m (.stopped ms) (some true) m
  /-- The last cycle has ended before the wait is over. -/
  | drains {ms : Nat} {s : Scheduler} :
      m.scheduler.isDrained = false → Passes (m.scheduler.bench.now + ms) m.scheduler s →
      s.isDrained = true → s.bench.now < m.scheduler.bench.now + ms →
      Takes m (.stopped ms) (some true) { m with scheduler := s }
  | waitsInVain {ms : Nat} {s : Scheduler} :
      m.scheduler.isDrained = false → Passes (m.scheduler.bench.now + ms) m.scheduler s →
      ¬ (s.isDrained = true ∧ s.bench.now < m.scheduler.bench.now + ms) →
      Takes m (.stopped ms) (some false)
        { m with scheduler := s.wait (m.scheduler.bench.now + ms) }

inductive Runs : Simulation → List Step → List Report → Simulation → Prop where
  | nil {m : Simulation} : Runs m [] [] m
  | cons {m m' m'' : Simulation} {step : Step} {steps : List Step} {returned : Option Bool}
      {reports : List Report} :
      Takes m step returned m' → Runs m' steps reports m'' →
      Runs m (step :: steps) (m.report m' returned :: reports) m''

theorem takes_apply {m : Simulation} (h : m.scheduler.Sound) (step : Step) :
    Takes m step (m.apply step).1 (m.apply step).2 := by
  have hn : ∀ ms, m.scheduler.bench.now ≤ m.scheduler.bench.now + ms := fun _ => Nat.le_add_right _ _
  cases step with
  | start => exact .start
  | stop => exact .stop
  | refresh => exact .refresh
  | release r => exact .release r
  | drop => exact .drop
  | sleep ms =>
    exact .sleep (passes_runFor (fun _ hs => by cases hs) _ h (hn ms) (Nat.le_refl _))
  | stopped ms =>
    have hp : Passes (m.scheduler.bench.now + ms) m.scheduler
        (m.scheduler.runUntil isDrained (m.scheduler.bench.now + ms)) := by
      refine passes_runFor ?_ _ h (hn ms) (Nat.le_refl _)
      intro s hs
      simp only [isDrained, Bool.and_eq_true, List.isEmpty_iff] at hs
      exact hs.2
    by_cases hd : m.scheduler.isDrained = true
    · have ht : Takes m (.stopped ms) (some true) m := .drained hd
      simpa [apply, awaitDrained, hd] using ht
    · rw [Bool.not_eq_true] at hd
      by_cases hs : (m.scheduler.runUntil isDrained (m.scheduler.bench.now + ms)).isDrained = true ∧
          (m.scheduler.runUntil isDrained (m.scheduler.bench.now + ms)).bench.now <
            m.scheduler.bench.now + ms
      · simpa [apply, awaitDrained, hd, hs] using Takes.drains hd hp hs.1 hs.2
      · simpa [apply, awaitDrained, hd, hs, wait] using Takes.waitsInVain hd hp hs

theorem Takes.moves {m m' : Simulation} {step : Step} {returned : Option Bool}
    (hs : m.scheduler.Sound) (h : Takes m step returned m') :
    m.scheduler.Moves m'.scheduler := by
  cases h with
  | start => exact moves_apply hs .start
  | stop => exact moves_apply hs .stop
  | refresh => exact moves_apply hs .refresh
  | release r => exact moves_apply hs (.release r)
  | drop => exact moves_apply hs .drop
  | drained => exact .refl
  | drains _ hp => exact hp.moves
  | sleep hp | waitsInVain _ hp =>
    exact .tail hp.moves (.wait _ fun c hc => Nat.le_of_lt (hp.atRest c hc))

theorem Runs.moves {m m' : Simulation} {steps : List Step} {reports : List Report}
    (hs : m.scheduler.Sound) (h : Runs m steps reports m') :
    m.scheduler.Moves m'.scheduler := by
  induction h with
  | nil => exact .refl
  | cons ht _ ih =>
    have hm := ht.moves hs
    exact hm.trans (ih (hm.sound hs))

/-- The run of a simulation is one of its runs. -/
theorem runs_run {m : Simulation} (h : m.scheduler.Sound) (steps : List Step) :
    Runs m steps (m.run steps).1 (m.run steps).2 := by
  induction steps generalizing m with
  | nil => exact .nil
  | cons step steps ih =>
    have ht := takes_apply h step
    exact .cons ht (ih ((ht.moves h).sound h))

end Simulation
end Heartbeat
