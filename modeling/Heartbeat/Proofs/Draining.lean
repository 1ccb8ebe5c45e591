import Heartbeat.Proofs.Lines

/-!
# Heartbeat.Proofs.Draining

When a scheduler that was stopped has nothing left to do.

* `Sent.doneAt` — when the wait for the answer to a send is over.
* `drainTime`   — when the last tick ends that was under way at a stop.
* `Winding`     — a state that a stop has come to: something is live before the drain time, and
  nothing from then on.
* `Winding.takes_stopped` — so a wait for the end is over at the drain time.
-/

namespace Heartbeat

/-- The wait for the answer to a send is over as the answer comes, or at the end of its timeout. -/
def Sent.doneAt (timeout : Nat) (x : Sent) : Nat :=
  match x.settlement with
  | some a => min a.time (x.time + timeout)
  | none => x.time + timeout

namespace Sent

variable {timeout : Nat} {x y : Sent}

theorem doneAt_le (timeout : Nat) (x : Sent) : x.doneAt timeout ≤ x.time + timeout := by
  unfold doneAt
  split
  · exact Nat.min_le_right _ _
  · exact Nat.le_refl _

/-- An answer that comes when the wait is over does not move its end. -/
theorem Keeps.doneAt_eq {now : Nat} (h : x.Keeps now y) (hn : x.doneAt timeout ≤ now) :
    y.doneAt timeout = x.doneAt timeout := by
  obtain ⟨ht, -, hs | ⟨hnone, a, ha, hle⟩⟩ := h
  · rw [doneAt, doneAt, hs, ht]
  · simp only [doneAt, hnone, ha, ht] at hn ⊢
    omega

theorem conclude_eq_doneAt (h : ∀ a, x.settlement = some a → x.time ≤ a.time) :
    (conclude x.time timeout x.settlement).1 = x.doneAt timeout := by
  cases hs : x.settlement with
  | none => simp [conclude, doneAt, hs]
  | some a =>
    have := h a hs
    simp only [conclude, doneAt, hs]
    split
    · simp only [Nat.max_eq_right this]
      omega
    · simp only
      omega

end Sent

theorem WaitEnds.doneAt_eq {x : Sent} {timeout lasted : Nat} {o : Outcome}
    (h : WaitEnds x.time timeout x.settlement lasted o)
    (ha : ∀ a, x.settlement = some a → x.time ≤ a.time) : x.doneAt timeout = x.time + lasted := by
  cases h with
  | @answered a hs hle =>
    have := ha a hs
    simp only [Sent.doneAt, hs]
    omega
  | unanswered hs =>
    unfold Sent.doneAt
    split
    · rename_i a hsome
      have := hs a hsome
      omega
    · rfl

/-- No answer comes before its request. -/
theorem Replied.le {time : Nat} {reply : Reply} {answer : Option Settlement}
    (h : Replied time reply answer) {a : Settlement} (ha : answer = some a) : time ≤ a.time := by
  cases h with
  | after => cases ha; exact Nat.le_add_right _ _
  | held => cases ha
  | released hle => cases ha; omega

theorem foldr_max_le_iff {l : List Nat} {a b : Nat} :
    l.foldr max a ≤ b ↔ a ≤ b ∧ ∀ x ∈ l, x ≤ b := by
  induction l with
  | nil => simp
  | cons x l ih =>
    rw [List.foldr_cons, Nat.max_le, ih, List.forall_mem_cons]
    exact and_left_comm

namespace Scheduler

variable {s s' s'' : Scheduler} {c : LiveCycle} {deadline late send target : Nat}

/-! ## Ticks under way -/

/-- The sends that the ticks under way wait for. -/
def inFlight (s : Scheduler) : List Nat :=
  s.live.filterMap fun c =>
    match c.phase with
    | .idle _ => none
    | .waiting _ _ send => some send

/-- When the wait for a send is over, as far as its answer is known. -/
def overAt (s : Scheduler) (send : Nat) : Nat :=
  (s.bench.transport.sends[send]?.map (·.doneAt s.cadence.responseTimeout)).getD 0

/-- When the last tick ends that was under way at a stop in `s`, as far as `s'` knows. -/
def drainTime (s s' : Scheduler) : Nat := (s.inFlight.map s'.overAt).foldr max s.bench.now

theorem mem_inFlight :
    send ∈ s.inFlight ↔ ∃ c ∈ s.live, ∃ deadline late, c.phase = .waiting deadline late send := by
  rw [inFlight, List.mem_filterMap]
  constructor
  · rintro ⟨c, hc, hp⟩
    split at hp
    · cases hp
    · rename_i deadline late n hphase
      cases hp
      exact ⟨c, hc, deadline, late, hphase⟩
  · rintro ⟨c, hc, deadline, late, hp⟩
    exact ⟨c, hc, by rw [hp]⟩

theorem drainTime_le_iff {b : Nat} :
    s.drainTime s' ≤ b ↔ s.bench.now ≤ b ∧ ∀ send ∈ s.inFlight, s'.overAt send ≤ b := by
  rw [drainTime, foldr_max_le_iff, List.forall_mem_map]

/-- A tick under way began as its send was made. -/
theorem Reachable.sent_of_waiting (h : Reachable s) (hc : c ∈ s.live)
    (hp : c.phase = .waiting deadline late send) :
    ∃ x, s.bench.transport.sends[send]? = some x ∧ x.time = deadline + late := by
  rcases h.told c.attempt.cycle with ⟨_, hgone⟩ | ⟨k, laps, stage, hid, hr⟩
  · exact absurd rfl (hgone c hc)
  · have hlive := (hr.live c).mp ⟨hc, hid.symm⟩
    have hle := k.deadline_le_begins s.cadence laps
    cases hr.stands with
    | idle => cases hlive; cases hp
    | waiting _ _ hd =>
      cases hlive
      cases hp
      obtain ⟨x, hx, ht, _⟩ := hd.sent
      exact ⟨x, hx, by omega⟩
    | delivered | rearmed | notRearmed | exhausted | cancelled => cases hlive

theorem Reachable.le_of_settled (h : Reachable s) {x : Sent}
    (hx : s.bench.transport.sends[send]? = some x) :
    ∀ a, x.settlement = some a → x.time ≤ a.time := fun _ ha =>
  (h.follows.transport.replied _ x hx).le ha

/-- A tick ends when the wait for its send is over. -/
theorem Reachable.ending_eq_doneAt (h : Reachable s) {x : Sent}
    (hx : s.bench.transport.sends[send]? = some x) (ht : x.time = deadline + late) :
    (s.ending c deadline late send).1 = x.doneAt c.attempt.timeout := by
  rw [← Sent.conclude_eq_doneAt (h.le_of_settled hx), ht, ending, Bench.awaits,
    Transport.settlement?, hx]
  rfl

/-! ## From the stop on -/

/-- A stop in `s` has come to `s'`. -/
structure Winding (s s' : Scheduler) : Prop where
  reachable : Reachable s
  stopped : ∃ s₀, s.StoppedAs s₀ ∧ s.Moves s₀ ∧ s₀.Moves s'

namespace Winding

theorem moves (h : Winding s s') (hm : s'.Moves s'') : Winding s s'' := by
  obtain ⟨s₀, hst, h₀, h'⟩ := h.stopped
  exact ⟨h.reachable, s₀, hst, h₀, h'.trans hm⟩

theorem since (h : Winding s s') : s.Moves s' := by
  obtain ⟨s₀, _, h₀, h'⟩ := h.stopped
  exact h₀.trans h'

theorem reachable' (h : Winding s s') : Reachable s' := h.reachable.moves h.since

theorem winds (h : Winding s s') : s.WindsDown s' := by
  obtain ⟨s₀, hst, _, h'⟩ := h.stopped
  exact hst.winds.trans (h'.windsDown hst.winds.lifecycle)

theorem aftermath (h : Winding s s') (hc : c ∈ s.live) : Aftermath s s' c := by
  obtain ⟨s₀, hst, h₀, h'⟩ := h.stopped
  exact hst.moves h.reachable.sound (h₀.sound h.reachable.sound) h' hc

/-- What is live was so at the stop. -/
theorem exists_before (h : Winding s s') {c' : LiveCycle} (hc' : c' ∈ s'.live) :
    ∃ c ∈ s.live, c.attempt.cycle = c'.attempt.cycle := by
  obtain ⟨c, hc, hid⟩ := List.mem_map.mp (h.winds.live.subset (List.mem_map_of_mem hc'))
  exact ⟨c, hc, (Prod.ext_iff.mp hid).1⟩

/-- The end of the wait for a send is what its record says. -/
theorem sent (h : Winding s s') (hc : c ∈ s.live) (hp : c.phase = .waiting deadline late send) :
    ∃ y, s'.bench.transport.sends[send]? = some y ∧ y.time = deadline + late ∧
      s'.overAt send = y.doneAt c.attempt.timeout := by
  obtain ⟨x, hx, ht⟩ := h.reachable.sent_of_waiting hc hp
  obtain ⟨y, hy, ht', _⟩ := h.since.grows.sends _ x hx
  refine ⟨y, hy, ht'.trans ht, ?_⟩
  rw [(h.reachable.sound.each c hc).timeout, ← h.since.cadence_eq, overAt, hy]
  rfl

theorem ending_eq (h : Winding s s') (hc : c ∈ s.live)
    (hp : c.phase = .waiting deadline late send) :
    (s'.ending c deadline late send).1 = s'.overAt send := by
  obtain ⟨y, hy, ht, hover⟩ := h.sent hc hp
  rw [hover, h.reachable'.ending_eq_doneAt hy ht]

theorem ended_eq (h : Winding s s') (hc : c ∈ s.live)
    (hp : c.phase = .waiting deadline late send) {time : Nat} {o : Outcome}
    (he : TickEnded s s' c (deadline + late) send time o) : s'.overAt send = time := by
  obtain ⟨y, hy, ht, hover⟩ := h.sent hc hp
  have hwait := he.wait
  have hbegan := he.began_le
  rw [Transport.settlement?, hy, Option.bind_some, ← ht] at hwait
  rw [← ht] at hbegan
  rw [hover, hwait.doneAt_eq (h.reachable'.le_of_settled hy)]
  omega

/-- What is live keeps the clock from passing the drain time. -/
theorem now_le (h : Winding s s') (hl : s'.live ≠ []) : s'.bench.now ≤ s.drainTime s' := by
  obtain ⟨hnow, hover⟩ := drainTime_le_iff.mp (Nat.le_refl (s.drainTime s'))
  obtain ⟨c', hc'⟩ := List.exists_mem_of_ne_nil _ hl
  obtain ⟨c, hc, hid⟩ := h.exists_before hc'
  have ha := h.aftermath hc
  unfold Aftermath at ha
  cases hp : c.phase with
  | idle deadline =>
    rw [hp] at ha
    cases ha with
    | unseen hn => omega
    | cancelled hg => exact absurd hid.symm (hg c' hc')
  | waiting deadline late send =>
    rw [hp] at ha
    have hle := hover send (mem_inFlight.mpr ⟨c, hc, deadline, late, hp⟩)
    cases ha with
    | underWay hc₁ =>
      have hbegun := ((h.reachable'.sound.each c hc₁).begun hp).2.2
      rw [h.ending_eq hc hp] at hbegun
      omega
    | unseen he =>
      have := h.ended_eq hc hp he
      omega
    | cancelled _ _ hg | delivered _ hg => exact absurd hid.symm (hg c' hc')

/-- Before the drain time a tick is under way. -/
theorem live_ne_nil (h : Winding s s') (hn : s'.bench.now < s.drainTime s') : s'.live ≠ [] := by
  intro hnil
  have hgone : ∀ x : LiveCycle, x ∉ s'.live := by simp [hnil]
  refine absurd (drainTime_le_iff.mpr ⟨h.since.grows.now, fun send hsend => ?_⟩) (Nat.not_le.mpr hn)
  obtain ⟨c, hc, deadline, late, hp⟩ := mem_inFlight.mp hsend
  have ha := h.aftermath hc
  unfold Aftermath at ha
  rw [hp] at ha
  cases ha with
  | underWay hc₁ => exact absurd hc₁ (hgone c)
  | unseen _ _ hc₁ => exact absurd hc₁ (hgone _)
  | cancelled he | delivered he => exact h.ended_eq hc hp he ▸ he.before

/-- Once all that is ready has been polled, nothing is live from the drain time on. -/
theorem now_lt (h : Winding s s') (hr : s'.AtRest) (hl : s'.live ≠ []) :
    s'.bench.now < s.drainTime s' := by
  obtain ⟨c', hc'⟩ := List.exists_mem_of_ne_nil _ hl
  obtain ⟨c, hc, hid⟩ := h.exists_before hc'
  obtain ⟨rfl, deadline, late, send, hp⟩ := (h.aftermath hc).of_atRest h.reachable'.sound
    h.winds.lifecycle hr hc' hid.symm
  have hlt := hr _ hc'
  rw [wakeTime_waiting hp, h.ending_eq hc hp] at hlt
  have hover := (drainTime_le_iff.mp (Nat.le_refl (s.drainTime s'))).2
  exact Nat.lt_of_lt_of_le hlt (hover send (mem_inFlight.mpr ⟨_, hc, deadline, late, hp⟩))

theorem drainTime_le (h : Winding s s') :
    s.drainTime s' ≤ s.bench.now + s.cadence.responseTimeout := by
  refine drainTime_le_iff.mpr ⟨Nat.le_add_right _ _, fun send hsend => ?_⟩
  obtain ⟨c, hc, deadline, late, hp⟩ := mem_inFlight.mp hsend
  obtain ⟨y, _, ht, hover⟩ := h.sent hc hp
  have hbegun := ((h.reachable.sound.each c hc).begun hp).1
  have hle := y.doneAt_le c.attempt.timeout
  have htimeout := (h.reachable.sound.each c hc).timeout
  omega

/-- What ends after the drain time does not move it. -/
theorem drainTime_eq (h : Winding s s') (hn : s.drainTime s' ≤ s'.bench.now)
    (hm : s'.Moves s'') : s.drainTime s'' = s.drainTime s' := by
  have hover : ∀ send ∈ s.inFlight, s''.overAt send = s'.overAt send := by
    intro send hsend
    obtain ⟨c, hc, deadline, late, hp⟩ := mem_inFlight.mp hsend
    obtain ⟨x, hx, -⟩ := h.sent hc hp
    obtain ⟨y, hy, hkeeps⟩ := hm.grows.sends _ x hx
    have hle := (drainTime_le_iff.mp hn).2 send hsend
    rw [overAt, hx] at hle
    rw [overAt, overAt, hx, hy, hm.cadence_eq]
    exact hkeeps.doneAt_eq hle
  rw [drainTime, drainTime, List.map_congr_left hover]

end Winding

/-! ## Waiting for the end -/

theorem isDrained_iff : s.isDrained = true ↔ s.lifecycle = .stopped ∧ s.live = [] := by
  simp [isDrained, isStopped]

theorem Turn.transport_eq {l r : List LiveCycle} (hs : s.lifecycle = .stopped)
    (ht : Turn s l c r s') : s'.bench.transport = s.bench.transport := by
  cases ht with
  | sent _ hn => exact absurd hs hn
  | _ => rfl

theorem Passes.lifecycle_eq (h : Passes target s s') : s'.lifecycle = s.lifecycle := by
  induction h with
  | rest => rfl
  | step ha _ ih =>
    obtain ⟨l, c, r, _, _, _, ht⟩ := ha.turn
    exact ih.trans ht.lifecycle_eq

theorem drainTime_congr (ht : s''.bench.transport = s'.bench.transport)
    (hc : s''.cadence = s'.cadence) : s.drainTime s'' = s.drainTime s' := by
  unfold drainTime overAt
  rw [ht, hc]

namespace Winding

theorem drainTime_passes (h : Winding s s') (hp : Passes target s' s'') :
    s.drainTime s'' = s.drainTime s' := by
  induction hp with
  | rest => rfl
  | step ha _ ih =>
    obtain ⟨l, c, r, _, _, _, ht⟩ := ha.turn
    have ht' := ht.transport_eq (s := Scheduler.wait _ _) h.winds.lifecycle
    exact (ih (h.moves ha.moves)).trans (drainTime_congr ht' ht.cadence_eq)

/-- Time passes no further than the drain time while there is something to poll. -/
theorem now_le_passes (h : Winding s s') (hn : s'.bench.now ≤ s.drainTime s')
    (hp : Passes target s' s'') : s''.bench.now ≤ s.drainTime s'' := by
  induction hp with
  | rest => exact hn
  | @step s' s₁ _ ha _ ih =>
    refine ih (h.moves ha.moves) ?_
    obtain ⟨l, c, r, hl, _, hwait, ht⟩ := ha.turn
    have hw := h.moves (moves_wait hwait)
    have hle := hw.now_le (by simp [Scheduler.wait, hl])
    rw [ht.now_eq, drainTime_congr (ht.transport_eq hw.winds.lifecycle) ht.cadence_eq]
    exact hle

/-- All that is ready by the target has been polled, and something is live still. -/
theorem target_lt (h : Winding s s') (hp : Passes target s' s'') (hl : s''.live ≠ []) :
    target < s.drainTime s' := by
  have hw : Winding s (s''.wait target) :=
    (h.moves hp.moves).moves (.single (.wait _ fun c hc => Nat.le_of_lt (hp.atRest c hc)))
  rw [← h.drainTime_passes hp]
  by_cases hn : s''.bench.now ≤ target
  · have hnow : (s''.wait target).bench.now = target := Nat.max_eq_right hn
    have hrest : (s''.wait target).AtRest := by
      intro c hc
      rw [hnow]
      exact hp.atRest c hc
    exact hnow ▸ hw.now_lt hrest hl
  · have := (h.moves hp.moves).now_le hl
    omega

end Winding
end Scheduler

open Scheduler

/-- **A wait for the end** of a scheduler that a stop in `s` has come to is over at once if nothing
is live, and else at the drain time, unless it is given up by then. -/
theorem Scheduler.Winding.takes_stopped {s : Scheduler} {m m' : Simulation} {ms : Nat}
    {returned : Option Bool} (h : Winding s m.scheduler)
    (ht : m.Takes (.stopped ms) returned m') :
    (returned = some true ↔
      m.scheduler.live = [] ∨ s.drainTime m.scheduler < m.scheduler.bench.now + ms) ∧
    (returned = some true →
      m'.scheduler.bench.now = max m.scheduler.bench.now (s.drainTime m.scheduler)) := by
  have hempty : ∀ {s' : Scheduler}, Winding s s' → s'.live = [] →
      s.drainTime s' ≤ s'.bench.now := fun hw hl =>
    Nat.le_of_not_lt fun hlt => hw.live_ne_nil hlt hl
  have hlive : m.scheduler.isDrained = false → m.scheduler.live ≠ [] := by
    intro hd hl
    rw [isDrained_iff.mpr ⟨h.winds.lifecycle, hl⟩] at hd
    cases hd
  cases ht with
  | drained hd =>
    have hl := (isDrained_iff.mp hd).2
    exact ⟨⟨fun _ => .inl hl, fun _ => rfl⟩, fun _ => (Nat.max_eq_left (hempty h hl)).symm⟩
  | @drains _ s' hd hp hs hlt =>
    -- the last poll is made at the drain time
    have hle := h.now_le (hlive hd)
    have hlast := h.now_le_passes hle hp
    have hend := hempty (h.moves hp.moves) (isDrained_iff.mp hs).2
    rw [h.drainTime_passes hp] at hlast hend
    have hnow : s'.bench.now = max m.scheduler.bench.now (s.drainTime m.scheduler) := by omega
    exact ⟨⟨fun _ => .inr (by omega), fun _ => rfl⟩, fun _ => hnow⟩
  | @waitsInVain _ s' hd hp hnot =>
    refine ⟨⟨fun hr => (by cases hr), fun hr => ?_⟩, fun hr => (by cases hr)⟩
    have hlt := hr.resolve_left (hlive hd)
    have hle := h.now_le (hlive hd)
    by_cases hl : s'.live = []
    · have hlast := h.now_le_passes hle hp
      have hw := h.moves hp.moves
      rw [h.drainTime_passes hp] at hlast
      exact absurd ⟨isDrained_iff.mpr ⟨hw.winds.lifecycle, hl⟩, by omega⟩ hnot
    · have := h.target_lt hp hl
      omega

/-- **No wait for the end is over before a stop**, even if nothing is live. -/
theorem Simulation.Takes.not_stopped {m m' : Simulation} {ms : Nat} {returned : Option Bool}
    (h : m.scheduler.lifecycle ≠ .stopped) (ht : m.Takes (.stopped ms) returned m') :
    returned = some false := by
  cases ht with
  | drained hd => exact absurd (isDrained_iff.mp hd).1 h
  | drains _ hp hs =>
    exact absurd (hp.lifecycle_eq.symm.trans (isDrained_iff.mp hs).1) h
  | waitsInVain => rfl

end Heartbeat
