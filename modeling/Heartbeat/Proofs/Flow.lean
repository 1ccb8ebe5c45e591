import Heartbeat.Proofs.Sound

/-!
# Heartbeat.Proofs.Flow

Letting time pass is made of moves, and comes to an end.

* `Turn.work_lt`             — every poll lowers the work that is left before the target.
* `runUntil_spec`            — so all that is ready by the target is polled, whatever its amount.
* `sleep_spec`               — a sleep ends at its target with nothing ready.
* `Simulation.reachable_run` — the steps of a simulation are moves, so what a run comes to is
  reachable.
-/

namespace Heartbeat

theorem eq_nil_of_leastAt {α : Type} {f : α → Nat} {xs : List α} (h : leastAt f xs = none) :
    xs = [] := by
  cases xs with
  | nil => rfl
  | cons x xs =>
    simp only [leastAt] at h
    split at h
    · cases h
    · split at h <;> cases h

theorem leastAt_some {α : Type} {f : α → Nat} {xs : List α} {i n : Nat}
    (h : leastAt f xs = some (i, n)) :
    ∃ l x r, xs = l ++ x :: r ∧ l.length = i ∧ f x = n ∧ ∀ y ∈ xs, n ≤ f y := by
  induction xs generalizing i n with
  | nil => cases h
  | cons x xs ih =>
    simp only [leastAt] at h
    split at h
    · rename_i hn
      cases h
      cases eq_nil_of_leastAt hn
      exact ⟨[], x, [], rfl, rfl, rfl, by simp⟩
    · rename_i j m hm
      obtain ⟨l, y, r, hxs, hj, hy, hall⟩ := ih hm
      split at h
      · rename_i hle
        cases h
        refine ⟨[], x, xs, rfl, rfl, rfl, ?_⟩
        intro z hz
        rcases List.mem_cons.mp hz with rfl | hz
        · exact Nat.le_refl _
        · exact Nat.le_trans hle (hall z hz)
      · cases h
        refine ⟨x :: l, y, r, by rw [hxs]; rfl, by rw [List.length_cons, hj], hy, ?_⟩
        intro z hz
        rcases List.mem_cons.mp hz with rfl | hz
        · omega
        · exact hall z hz

namespace Scheduler

/-- No cycle is ready. -/
def AtRest (s : Scheduler) : Prop := ∀ c ∈ s.live, s.bench.now < s.wakeTime c

/-- What the cycles of a list have before them up to the target. -/
def load (target : Nat) (l : List LiveCycle) : Nat :=
  l.foldr (fun c w => weight target c + w) 0

theorem work_eq_load (s : Scheduler) (target : Nat) : s.work target = load target s.live := rfl

@[simp] theorem load_nil (target : Nat) : load target [] = 0 := rfl

@[simp] theorem load_cons (target : Nat) (c : LiveCycle) (l : List LiveCycle) :
    load target (c :: l) = weight target c + load target l := rfl

@[simp] theorem load_append (target : Nat) (l r : List LiveCycle) :
    load target (l ++ r) = load target l + load target r := by
  induction l with
  | nil => simp
  | cons c l ih => rw [List.cons_append, load_cons, load_cons, ih, Nat.add_assoc]

theorem weight_idle {target deadline : Nat} {c : LiveCycle} (hp : c.phase = .idle deadline) :
    weight target c = 2 * (target + 1 - deadline) + 1 := by
  simp [weight, hp]

theorem weight_waiting {target deadline late send : Nat} {c : LiveCycle}
    (hp : c.phase = .waiting deadline late send) :
    weight target c = 2 * (target + 1 - deadline) := by
  simp [weight, hp]

/-- A tick that ends leaves less to do: its cycle is next due at a later deadline. -/
theorem weight_next_lt {target deadline : Nat} (c : LiveCycle) (late : Nat)
    (hd : deadline ≤ target) :
    2 * (target + 1 - nextDeadline deadline late c.period) + 1 <
      2 * (target + 1 - deadline) := by
  have := deadline_lt_nextDeadline deadline late c.period_pos
  omega

theorem Turn.work_lt {s s' : Scheduler} {l r : List LiveCycle} {c : LiveCycle} {target : Nat}
    (h : s.Sound) (hl : s.live = l ++ c :: r) (hw : s.wakeTime c ≤ s.bench.now)
    (hn : s.bench.now ≤ target) (ht : Turn s l c r s') : s'.work target < s.work target := by
  have hcs : c.Sound s := h.each c (by simp [hl])
  rw [work_eq_load, work_eq_load, hl]
  cases ht with
  | cancelled hp | exhausted hp =>
    simp only [load_append, load_cons, weight_idle hp]
    omega
  | @unsent deadline chain hp hs =>
    have hd := wakeTime_idle hp hs
    have := weight_next_lt c (s.bench.now - deadline) (by omega : deadline ≤ target)
    simp only [load_append, load_cons, weight_idle hp]
    simp only [weight]
    omega
  | sent hp =>
    simp only [load_append, load_cons, weight_idle hp]
    simp only [weight]
    omega
  | @retried deadline late send o hp =>
    have hd := (hcs.begun hp).1
    have := weight_next_lt c late (by omega : deadline ≤ target)
    simp only [load_append, load_cons, weight_waiting hp]
    simp only [weight]
    omega
  | delivered hp | notRearmed hp =>
    have hd := (hcs.begun hp).1
    simp only [load_append, load_cons, weight_waiting hp]
    omega
  | rearmed hp =>
    have hd := (hcs.begun hp).1
    have hr := s.cadence.refreshInterval_pos
    simp only [arm_live, load_append, load_cons, load_nil, weight_waiting hp]
    simp only [weight, armed, Cycle.slowRefresh, note_bench, Bench.note_now]
    omega

theorem lt_wakeTime_of_nextReady {s : Scheduler} {target : Nat} (h : s.nextReady target = none)
    {c : LiveCycle} (hc : c ∈ s.live) : target < s.wakeTime c := by
  simp only [nextReady, Option.filter_eq_none_iff, decide_eq_true_eq] at h
  cases hm : leastAt s.wakeTime s.live with
  | none => rw [eq_nil_of_leastAt hm] at hc; cases hc
  | some x =>
    obtain ⟨i, n⟩ := x
    obtain ⟨_, _, _, _, _, _, hall⟩ := leastAt_some hm
    have := h _ hm
    have := hall c hc
    omega

/-- What is polled next is ready by the target, and nothing is ready before it. -/
theorem nextReady_some {s : Scheduler} {target i time : Nat}
    (h : s.nextReady target = some (i, time)) :
    ∃ l c r, s.live = l ++ c :: r ∧ l.length = i ∧ s.wakeTime c = time ∧ time ≤ target ∧
      ∀ x ∈ s.live, time ≤ s.wakeTime x := by
  simp only [nextReady, Option.filter_eq_some_iff, decide_eq_true_eq] at h
  obtain ⟨l, c, r, hl, hi, htime, hall⟩ := leastAt_some h.1
  exact ⟨l, c, r, hl, hi, htime, h.2, hall⟩

/-- The poll that comes next is a wait, in which nothing is missed, and a poll. -/
theorem pollAt_spec {s : Scheduler} {target i time : Nat} (h : s.Sound)
    (hn : s.bench.now ≤ target) (hr : s.nextReady target = some (i, time)) :
    s.Moves (s.pollAt i time) ∧ (s.pollAt i time).bench.now ≤ target ∧
      (s.pollAt i time).work target < s.work target := by
  obtain ⟨l, c, r, hl, rfl, rfl, hle, hall⟩ := nextReady_some hr
  have hm : Move s (s.wait (s.wakeTime c)) := .wait _ hall
  have hw : (s.wait (s.wakeTime c)).wakeTime c ≤ (s.wait (s.wakeTime c)).bench.now :=
    Nat.le_max_right _ _
  have hn' : (s.wait (s.wakeTime c)).bench.now ≤ target := Nat.max_le.mpr ⟨hn, hle⟩
  have ht : Turn (s.wait (s.wakeTime c)) l c r (s.pollAt l.length (s.wakeTime c)) :=
    turn_of_poll hl
  have hlt := ht.work_lt (hm.sound h) hl hw hn'
  refine ⟨.tail (.single hm) (.poll hl hw), ?_, hlt⟩
  rw [ht.now_eq]
  exact hn'

/-- What is ready by the target is polled until something halts it or nothing is ready. -/
theorem runFor_spec (halt : Scheduler → Bool) {target : Nat} (fuel : Nat) {s : Scheduler}
    (h : s.Sound) (hn : s.bench.now ≤ target) (hf : s.work target ≤ fuel) :
    s.Moves (runFor halt target fuel s) ∧ (runFor halt target fuel s).bench.now ≤ target ∧
      (halt (runFor halt target fuel s) = true ∨
        (runFor halt target fuel s).nextReady target = none) := by
  -- every poll takes one unit of fuel and at least one of work
  induction fuel generalizing s with
  | zero =>
    refine ⟨.refl, hn, .inr ?_⟩
    -- a poll would lower the work below zero
    cases hr : s.nextReady target with
    | none => exact hr
    | some x =>
      obtain ⟨i, time⟩ := x
      have := (pollAt_spec h hn hr).2.2
      omega
  | succ fuel ih =>
    simp only [runFor]
    split
    · exact ⟨.refl, hn, .inl ‹_›⟩
    · cases hr : s.nextReady target with
      | none => exact ⟨.refl, hn, .inr hr⟩
      | some x =>
        obtain ⟨i, time⟩ := x
        obtain ⟨hm, hn', hlt⟩ := pollAt_spec h hn hr
        obtain ⟨hm', hn'', hend⟩ := ih (hm.sound h) hn' (by omega)
        exact ⟨hm.trans hm', hn'', hend⟩

theorem runUntil_spec (halt : Scheduler → Bool) {target : Nat} {s : Scheduler} (h : s.Sound)
    (hn : s.bench.now ≤ target) :
    s.Moves (s.runUntil halt target) ∧ (s.runUntil halt target).bench.now ≤ target ∧
      (halt (s.runUntil halt target) = true ∨ (s.runUntil halt target).nextReady target = none) :=
  runFor_spec halt _ h hn (Nat.le_refl _)

theorem move_wait_target {s : Scheduler} {target : Nat} (h : s.nextReady target = none) :
    Move s (s.wait target) :=
  .wait target fun _ hc => Nat.le_of_lt (lt_wakeTime_of_nextReady h hc)

theorem sleep_spec {s : Scheduler} (h : s.Sound) (ms : Nat) :
    s.Moves (s.sleep ms) ∧ (s.sleep ms).AtRest ∧ (s.sleep ms).bench.now = s.bench.now + ms := by
  obtain ⟨hm, hn, hend⟩ := runUntil_spec (fun _ => false) h (Nat.le_add_right s.bench.now ms)
  have hr := hend.resolve_left Bool.false_ne_true
  have hnow : (s.sleep ms).bench.now = s.bench.now + ms := Nat.max_eq_right hn
  refine ⟨.tail hm (move_wait_target hr), ?_, hnow⟩
  intro c hc
  rw [hnow]
  exact lt_wakeTime_of_nextReady hr hc

theorem awaitDrained_moves {s : Scheduler} (h : s.Sound) (ms : Nat) :
    s.Moves (s.awaitDrained ms).2 := by
  obtain ⟨hm, hn, hend⟩ := runUntil_spec isDrained h (Nat.le_add_right s.bench.now ms)
  unfold awaitDrained
  split
  · exact .refl
  · simp only
    split
    · exact hm
    · refine .tail hm ?_
      rcases hend with hd | hr
      · -- nothing is live that the clock could pass
        refine .wait _ fun c hc => ?_
        simp only [isDrained, Bool.and_eq_true, List.isEmpty_iff] at hd
        rw [hd.2] at hc
        cases hc
      · exact move_wait_target hr

end Scheduler

namespace Simulation

open Scheduler

theorem reachable_of_build {settings : Settings} {facade : Facade} {runtime : Bool}
    {factory : Script (Except ErrorChain Descriptor)} {script : Script Reply} {m : Simulation}
    (word : settings.maxTries < UInt32.size) (uncalled : factory.taken = 0)
    (unasked : script.taken = 0)
    (hb : build settings facade runtime { factory, transport := { script } } = .ok m) :
    Reachable m.scheduler := by
  unfold build at hb
  split at hb
  · cases hb
  · split at hb
    · cases hb
      exact .fresh word ‹_› uncalled unasked
    · cases hb

theorem moves_apply {m : Simulation} (h : m.scheduler.Sound) (step : Step) :
    m.scheduler.Moves (m.apply step).2.scheduler := by
  cases step with
  | start => exact .single .start
  | refresh => exact .single .refresh
  | stop =>
    have hs : Move m.scheduler m.scheduler.stop.2 := .stop
    simp only [apply]
    split
    · rename_i hr
      simp only [Bool.and_eq_true] at hr
      refine .tail (.single hs) (.announce ?_)
      have h₁ := hr.1
      unfold Scheduler.stop at h₁ ⊢
      split at h₁
      · simp [*, shutDown]
      · cases h₁
    · exact .single hs
  | sleep ms => exact (sleep_spec h ms).1
  | stopped ms => exact awaitDrained_moves h ms
  | release r => exact .single (.release r)
  | drop => exact .single .drop

theorem moves_run {m : Simulation} (h : m.scheduler.Sound) (steps : List Step) :
    m.scheduler.Moves (m.run steps).2.scheduler := by
  induction steps generalizing m with
  | nil => exact .refl
  | cons step steps ih =>
    have hm := moves_apply h step
    exact hm.trans (ih (hm.sound h))

theorem reachable_run {m : Simulation} (h : Reachable m.scheduler) (steps : List Step) :
    Reachable (m.run steps).2.scheduler :=
  h.moves (moves_run h.sound steps)

/-! ## A sample -/

/-- A tick every 10 ms, a refresh after 100 ms, two tries, and 50 ms for an answer. -/
def brisk : Cadence := ⟨10, 100, 2, 50, by decide, by decide, by decide, by decide⟩

/-- A reporter at that cadence, with a collector that answers as told. -/
def sample (replies : List Reply) (fallback : Reply) : Simulation where
  facade := .reporter
  scheduler := fresh brisk ⟨[], .ok ⟨"a-1", "app", "host", "10.0.0.1", 1, "1.0", 0, [], false⟩, 0⟩
    ⟨replies, fallback, 0⟩

/-- A reporter that was told to do some steps. -/
def sampled (replies : List Reply) (fallback : Reply) (steps : List Step) : Simulation :=
  ((sample replies fallback).run steps).2

/-- One whose first request is never answered and whose second is, 70 ms after the start. -/
def slowStart : Simulation := sampled [.hold 0] .ack [.start, .sleep 70]

theorem reachable_sampled (replies : List Reply) (fallback : Reply) (steps : List Step) :
    Reachable (sampled replies fallback steps).scheduler := by
  have accepted : Settings.cadence ⟨10, 100, 2, 50⟩ = .ok brisk := rfl
  exact reachable_run (.fresh (by decide) accepted rfl rfl) steps

end Simulation
end Heartbeat
