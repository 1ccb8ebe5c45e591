import Heartbeat.Proofs.Flow

/-!
# Heartbeat.Proofs.Shutdown

From a stop on a scheduler only winds down.

* `WindsDown s s'`         — nothing has been armed, sent, built or used up between `s` and `s'`.
* `Moves.windsDown`        — so it is for every way of going on from a stop.
* `AfterIdle`, `AfterTick` — what has become of a cycle that was idle, or in the middle of a tick,
  at the stop.
-/

namespace Heartbeat

/-- Events that only a scheduler tells of that is not stopped. -/
def Event.needsRunning : Event → Bool
  | .armed .. | .sending .. | .exhausted .. => true
  | _ => false

@[simp] theorem Attempt.needsRunning_verdict (a : Attempt) (o : Outcome) :
    (a.verdict o).needsRunning = false := by
  cases o <;> rfl

theorem Event.needsRunning_of_cycle? {e : Event} (h : e.cycle? = none) :
    e.needsRunning = false := by
  cases e <;> first | rfl | cases h

namespace Scheduler

/-- Which cycle it is that is live. -/
def identity (c : LiveCycle) : Nat × CycleKind := (c.attempt.cycle, c.attempt.kind)

structure WindsDown (s s' : Scheduler) : Prop where
  lifecycle : s'.lifecycle = .stopped
  nextCycle : s'.nextCycle = s.nextCycle
  factory : s'.bench.factory = s.bench.factory
  sends : s'.bench.transport.sends.length = s.bench.transport.sends.length
  log : s.AddsNo Event.needsRunning s'
  live : (s'.live.map identity).Sublist (s.live.map identity)

namespace WindsDown

theorem refl {s : Scheduler} (h : s.lifecycle = .stopped) : s.WindsDown s :=
  ⟨h, rfl, rfl, rfl, .refl _ _, List.Sublist.refl _⟩

theorem trans {s s' s'' : Scheduler} (h₁ : s.WindsDown s') (h₂ : s'.WindsDown s'') :
    s.WindsDown s'' where
  lifecycle := h₂.lifecycle
  nextCycle := h₂.nextCycle.trans h₁.nextCycle
  factory := h₂.factory.trans h₁.factory
  sends := h₂.sends.trans h₁.sends
  log := h₁.log.trans h₂.log
  live := h₂.live.trans h₁.live

theorem of_note {s : Scheduler} {e : Event} (h : s.lifecycle = .stopped)
    (he : e.needsRunning = false) : s.WindsDown (s.note e) :=
  { refl h with log := .of_cons rfl he }

/-- Live cycles may be lost on the way. -/
theorem of_live {s s' : Scheduler} (h : s.WindsDown s') {live : List LiveCycle}
    (hl : (live.map identity).Sublist (s.live.map identity)) :
    s.WindsDown { s' with live } :=
  { h with live := hl }

end WindsDown

theorem Turn.windsDown {s s' : Scheduler} {l r : List LiveCycle} {c : LiveCycle}
    (hl : s.live = l ++ c :: r) (hs : s.lifecycle = .stopped) (ht : Turn s l c r s') :
    s.WindsDown s' := by
  have hsub : ((l ++ r).map identity).Sublist (s.live.map identity) := by
    simp [hl]
  cases ht with
  | cancelled => exact (WindsDown.of_note hs rfl).of_live hsub
  | exhausted _ hn | unsent _ hn | sent _ hn => exact absurd hs hn
  | retried =>
    refine (WindsDown.of_note hs (Attempt.needsRunning_verdict _ _)).of_live ?_
    simp [hl, identity]
  | delivered => exact (WindsDown.of_note hs (Attempt.needsRunning_verdict _ _)).of_live hsub
  | rearmed _ _ _ hr => rw [hs] at hr; cases hr
  | notRearmed =>
    have h₁ := WindsDown.of_note hs (Attempt.needsRunning_verdict c.attempt .success)
    exact (h₁.trans (.of_note hs rfl)).of_live hsub

theorem Move.windsDown {s s' : Scheduler} (hs : s.lifecycle = .stopped) (hm : Move s s') :
    s.WindsDown s' := by
  cases hm.effect with
  | started h | refreshed h | shutDown h => rw [hs] at h; cases h
  | noted he => exact .of_note hs (Event.needsRunning_of_cycle? he)
  | unchanged => exact .refl hs
  | released r => exact { WindsDown.refl hs with sends := Transport.sends_length_release _ _ r }
  | waited => exact { WindsDown.refl hs with }
  | polled hl _ ht => exact ht.windsDown hl hs

/-- Once stopped a scheduler begins nothing, whatever is called and however it goes on. -/
theorem Moves.windsDown {s s' : Scheduler} (hs : s.lifecycle = .stopped) (hm : Moves s s') :
    s.WindsDown s' := by
  induction hm with
  | refl => exact .refl hs
  | tail _ hm ih => exact ih.trans (hm.windsDown ih.lifecycle)

theorem Move.now_eq_of_ready {s s' : Scheduler} {c : LiveCycle} (hc : c ∈ s.live)
    (hr : s.wakeTime c ≤ s.bench.now) (hm : Move s s') : s'.bench.now = s.bench.now := by
  have hle := hm.now_le hc
  rw [Nat.max_eq_left hr] at hle
  exact Nat.le_antisymm hle hm.grows.now

theorem wakeTime_of_stopped {s : Scheduler} {c : LiveCycle} {deadline : Nat}
    (hp : c.phase = .idle deadline) (hs : s.lifecycle = .stopped) : s.wakeTime c = 0 := by
  simp [wakeTime, hp, isStopped, hs]

/-! ## What becomes of the cycles that were live -/

/-- What has become in `s'` of a cycle that was idle at the stop in `s`. -/
inductive AfterIdle (s s' : Scheduler) (c : LiveCycle) : Prop where
  /-- No time has passed, and it has not been polled. -/
  | unseen :
      s'.bench.now = s.bench.now → c ∈ s'.live →
      s'.history c.attempt.cycle = s.history c.attempt.cycle → AfterIdle s s' c
  /-- It ended as the stop came. -/
  | cancelled :
      s'.Gone c.attempt.cycle →
      s'.history c.attempt.cycle = s.history c.attempt.cycle ++
        [⟨s.bench.now, .cancelled c.attempt.cycle c.attempt.kind⟩] → AfterIdle s s' c

/-- The wait of a cycle that had begun before `s` ended at a time up to `s'`. -/
structure TickEnded (s s' : Scheduler) (c : LiveCycle) (began send time : Nat) (o : Outcome) :
    Prop where
  began_le : began ≤ time
  after : s.bench.now ≤ time
  before : time ≤ s'.bench.now
  wait : WaitEnds began c.attempt.timeout (s'.bench.transport.settlement? send) (time - began) o

/-- What has become in `s'` of a cycle whose tick was under way at the stop in `s`. -/
inductive AfterTick (s s' : Scheduler) (c : LiveCycle) (began send : Nat) : Prop where
  | underWay :
      c ∈ s'.live → s'.history c.attempt.cycle = s.history c.attempt.cycle →
      AfterTick s s' c began send
  /-- The tick has just failed, and the stop has not been seen. -/
  | unseen {o : Outcome} {c' : LiveCycle} {deadline : Nat} :
      TickEnded s s' c began send s'.bench.now o → o.isSuccess = false →
      c' ∈ s'.live → c'.attempt = c.attempt → c'.phase = .idle deadline →
      s'.history c.attempt.cycle = s.history c.attempt.cycle ++
        [⟨s'.bench.now, c.attempt.verdict o⟩] → AfterTick s s' c began send
  | cancelled {time : Nat} {o : Outcome} :
      TickEnded s s' c began send time o → o.isSuccess = false →
      s'.Gone c.attempt.cycle →
      s'.history c.attempt.cycle = s.history c.attempt.cycle ++
        [⟨time, c.attempt.verdict o⟩, ⟨time, .cancelled c.attempt.cycle c.attempt.kind⟩] →
      AfterTick s s' c began send
  | delivered {time : Nat} :
      TickEnded s s' c began send time .success → s'.Gone c.attempt.cycle →
      s'.history c.attempt.cycle = s.history c.attempt.cycle ++
        ⟨time, .delivered c.attempt.cycle c.attempt.kind c.attempt.ticks⟩ ::
          (if c.attempt.kind.isMain then [⟨time, .notRearmed c.attempt.cycle⟩] else []) →
      AfterTick s s' c began send

section Aftermath

variable {s s' s'' : Scheduler} {c : LiveCycle} {began send time : Nat} {o : Outcome}

theorem TickEnded.move (h : TickEnded s s' c began send time o) (hm : Move s' s'')
    (hs : send < s'.bench.transport.sends.length) :
    TickEnded s s'' c began send time o where
  began_le := h.began_le
  after := h.after
  before := Nat.le_trans h.before hm.grows.now
  wait := hm.grows.waitEnds hs (by have := h.began_le; have := h.before; omega) h.wait

/-- The tick of a cycle that is polled while it waits ends now. -/
theorem TickEnded.of_ending {l r : List LiveCycle} {deadline late : Nat} (h : s'.Sound)
    (hl : s'.live = l ++ c :: r) (hp : c.phase = .waiting deadline late send)
    (hw : s'.wakeTime c ≤ s'.bench.now) (hn : s.bench.now ≤ s'.bench.now)
    (ht : Turn s' l c r s'') :
    TickEnded s s'' c (deadline + late) send s''.bench.now (s'.ending c deadline late send).2 := by
  have hcs : c.Sound s' := h.each c (by simp [hl])
  obtain ⟨hb, hs, hle⟩ := hcs.begun hp
  rw [wakeTime_waiting hp] at hw
  have hnow : (s'.ending c deadline late send).1 = s'.bench.now := Nat.le_antisymm hw hle
  have hend := waitEnds_conclude (deadline + late) c.attempt.timeout
    (s'.bench.transport.settlement? send)
  change WaitEnds _ _ _ ((s'.ending c deadline late send).1 - (deadline + late))
    (s'.ending c deadline late send).2 at hend
  rw [hnow] at hend
  rw [ht.now_eq]
  exact ⟨hb, hn, Nat.le_of_eq ht.now_eq.symm, ht.grows.waitEnds hs (by omega) hend⟩

theorem Turn.of_idle_stopped {l r : List LiveCycle} {deadline : Nat} (h : s'.Sound)
    (hl : s'.live = l ++ c :: r) (hs : s'.lifecycle = .stopped) (hp : c.phase = .idle deadline)
    (ht : Turn s' l c r s'') :
    s''.Gone c.attempt.cycle ∧ s''.history c.attempt.cycle =
      s'.history c.attempt.cycle ++
        [⟨s'.bench.now, .cancelled c.attempt.cycle c.attempt.kind⟩] := by
  cases ht with
  | cancelled => exact ⟨h.cycle_ne hl, Entry.ofCycle_cons_self rfl _ _⟩
  | exhausted _ hn | unsent _ hn | sent _ hn => exact absurd hs hn
  | retried hp' | delivered hp' | rearmed hp' | notRearmed hp' => rw [hp] at hp'; cases hp'

theorem AfterIdle.move {deadline : Nat} (h : AfterIdle s s' c) (hp : c.phase = .idle deadline)
    (hs' : s'.Sound) (hs : s'.lifecycle = .stopped) (hid : c.attempt.cycle < s'.nextCycle)
    (hm : Move s' s'') : AfterIdle s s'' c := by
  rcases hm.spares (.inl hid) with hsp | ⟨l, d, r, hl, hd, _, ht⟩
  · cases h with
    | unseen hn hc hh =>
      have hr : s'.wakeTime c ≤ s'.bench.now := by rw [wakeTime_of_stopped hp hs]; omega
      exact .unseen ((hm.now_eq_of_ready hc hr).trans hn) ((hsp.live c rfl).mpr hc)
        (hsp.history.trans hh)
    | cancelled hg hh => exact .cancelled (hsp.gone hg) (hsp.history.trans hh)
  · cases h with
    | unseen hn hc hh =>
      obtain rfl := hs'.eq_of_cycle_eq hl hc hd.symm
      obtain ⟨hg, hh'⟩ := Turn.of_idle_stopped hs' hl hs hp ht
      exact .cancelled hg (by rw [hh', hh, hn])
    | cancelled hg _ => exact absurd hd (hg d (by simp [hl]))

theorem AfterTick.of_poll {l r : List LiveCycle} {deadline late : Nat} (hs' : s'.Sound)
    (hs : s'.lifecycle = .stopped) (hl : s'.live = l ++ c :: r)
    (hp : c.phase = .waiting deadline late send) (hw : s'.wakeTime c ≤ s'.bench.now)
    (hn : s.bench.now ≤ s'.bench.now)
    (hh : s'.history c.attempt.cycle = s.history c.attempt.cycle) (ht : Turn s' l c r s'') :
    AfterTick s s'' c (deadline + late) send := by
  have he := TickEnded.of_ending hs' hl hp hw hn ht
  cases ht with
  | cancelled hp' | exhausted hp' | unsent hp' | sent hp' => rw [hp] at hp'; cases hp'
  | retried hp' ho hf =>
    rw [hp] at hp'
    cases hp'
    rw [ho] at he
    refine .unseen he hf (List.mem_append_right _ (List.mem_cons_self ..)) rfl rfl ?_
    rw [← hh]
    exact Entry.ofCycle_cons_self (Attempt.cycle?_verdict _ _) _ _
  | delivered hp' ho hk' =>
    rw [hp] at hp'
    cases hp'
    rw [ho] at he
    have hm := (hs'.each c (by simp [hl])).isMain_of_nothing hk'
    refine .delivered he (hs'.cycle_ne hl) ?_
    rw [← hh, hm]
    exact Entry.ofCycle_cons_self rfl _ _
  | rearmed _ _ _ hr => rw [hs] at hr; cases hr
  | notRearmed hp' ho hk' =>
    rw [hp] at hp'
    cases hp'
    rw [ho] at he
    have hm := (hs'.each c (by simp [hl])).isMain_of_armSlowRefresh hk'
    refine .delivered he (hs'.cycle_ne hl) ?_
    rw [← hh, hm]
    simp [history, Attempt.verdict, Entry.ofCycle, Event.cycle?]

theorem AfterTick.move {deadline late : Nat}
    (h : AfterTick s s' c (deadline + late) send) (hp : c.phase = .waiting deadline late send)
    (hn : s.bench.now ≤ s'.bench.now) (hlen : send < s'.bench.transport.sends.length)
    (hs' : s'.Sound) (hs : s'.lifecycle = .stopped) (hid : c.attempt.cycle < s'.nextCycle)
    (hm : Move s' s'') : AfterTick s s'' c (deadline + late) send := by
  rcases hm.spares (.inl hid) with hsp | ⟨l, d, r, hl, hd, hw, ht⟩
  · cases h with
    | underWay hc hh => exact .underWay ((hsp.live c rfl).mpr hc) (hsp.history.trans hh)
    | @unseen o c' deadline' he ho hc ha hp' hh =>
      have hr : s'.wakeTime c' ≤ s'.bench.now := by rw [wakeTime_of_stopped hp' hs]; omega
      have hnow := hm.now_eq_of_ready hc hr
      have he' := he.move hm hlen
      rw [← hnow] at he' hh
      exact .unseen he' ho ((hsp.live c' (by rw [ha])).mpr hc) ha hp' (hsp.history.trans hh)
    | cancelled he ho hg hh =>
      exact .cancelled (he.move hm hlen) ho (hsp.gone hg) (hsp.history.trans hh)
    | delivered he hg hh =>
      exact .delivered (he.move hm hlen) (hsp.gone hg) (hsp.history.trans hh)
  · cases h with
    | underWay hc hh =>
      obtain rfl := hs'.eq_of_cycle_eq hl hc hd.symm
      exact .of_poll hs' hs hl hp hw hn hh ht
    | @unseen o c' deadline' he ho hc ha hp' hh =>
      obtain rfl := hs'.eq_of_cycle_eq hl hc (by rw [ha, hd])
      obtain ⟨hg, hh'⟩ := Turn.of_idle_stopped hs' hl hs hp' ht
      rw [ha] at hg hh'
      refine .cancelled (he.move hm hlen) ho hg ?_
      rw [hh', hh, List.append_assoc]
      rfl
    | cancelled _ _ hg _ => exact absurd hd (hg d (by simp [hl]))
    | delivered _ hg _ => exact absurd hd (hg d (by simp [hl]))

/-! ## A stop and what follows -/

/-- The stop of `s`, as a state: nothing but the lifecycle is another, and perhaps something is
said that is of no cycle. -/
structure StoppedAs (s s' : Scheduler) : Prop where
  winds : s.WindsDown s'
  now : s'.bench.now = s.bench.now
  live : s'.live = s.live
  history : ∀ id, s'.history id = s.history id

theorem stoppedAs_shutDown (s : Scheduler) : s.StoppedAs s.shutDown where
  winds := ⟨rfl, rfl, rfl, rfl, .refl _ _, List.Sublist.refl _⟩
  now := rfl
  live := rfl
  history _ := rfl

/-- How a scheduler comes to be stopped: by a stop, by being given up, or it has been before. -/
inductive Halts (s : Scheduler) : Scheduler → Prop where
  | stop : s.lifecycle = .running → Halts s s.stop.2
  | drop : s.lifecycle = .running → Halts s s.drop
  | before : s.lifecycle = .stopped → Halts s s

theorem Halts.stoppedAs {s₀ : Scheduler} (h : s.Halts s₀) : s.StoppedAs s₀ := by
  cases h with
  | stop hrun => simpa [Scheduler.stop, hrun] using stoppedAs_shutDown s
  | drop hrun => simpa [Scheduler.drop, hrun] using stoppedAs_shutDown s
  | before hst => exact ⟨.refl hst, rfl, rfl, fun _ => rfl⟩

theorem Halts.moves {s₀ : Scheduler} (h : s.Halts s₀) : s.Moves s₀ := by
  cases h with
  | stop => exact .single .stop
  | drop => exact .single .drop
  | before => exact .refl

theorem StoppedAs.spares {s₀ : Scheduler} (h : s.StoppedAs s₀) (id : Nat) : s.Spares s₀ id where
  history := h.history id
  live x _ := by rw [h.live]

/-- What has become of a cycle that was live at a stop. -/
def Aftermath (s s' : Scheduler) (c : LiveCycle) : Prop :=
  match c.phase with
  | .idle _ => AfterIdle s s' c
  | .waiting deadline late send => AfterTick s s' c (deadline + late) send

theorem StoppedAs.aftermath {s₀ : Scheduler} (h : s.StoppedAs s₀) {c : LiveCycle}
    (hc : c ∈ s.live) : Aftermath s s₀ c := by
  unfold Aftermath
  split
  · exact .unseen h.now (h.live ▸ hc) (h.history _)
  · exact .underWay (h.live ▸ hc) (h.history _)

theorem StoppedAs.moves {s₀ : Scheduler} (h : s.StoppedAs s₀) (hs : s.Sound) (hs₀ : s₀.Sound)
    (hm : Moves s₀ s') {c : LiveCycle} (hc : c ∈ s.live) : Aftermath s s' c := by
  have hcs := hs.each c hc
  induction hm with
  | refl => exact h.aftermath hc
  | @tail s' s'' hm hm' ih =>
    have hw := h.winds.trans (hm.windsDown h.winds.lifecycle)
    have hs' := hm.sound hs₀
    have hid : c.attempt.cycle < s'.nextCycle := by rw [hw.nextCycle]; exact hcs.named
    have hn : s.bench.now ≤ s'.bench.now := h.now ▸ hm.grows.now
    unfold Aftermath at ih ⊢
    cases hp : c.phase with
    | idle deadline =>
      rw [hp] at ih
      exact ih.move hp hs' hw.lifecycle hid hm'
    | waiting deadline late send =>
      rw [hp] at ih
      have hlen : send < s'.bench.transport.sends.length := by
        rw [hw.sends]; exact (hcs.begun hp).2.1
      exact ih.move hp hn hlen hs' hw.lifecycle hid hm'

/-- At rest after a stop, what is live is in the middle of the tick that it was in. -/
theorem Aftermath.of_atRest {c' : LiveCycle} (hs' : s'.Sound) (hst : s'.lifecycle = .stopped)
    (hr : s'.AtRest) (ha : Aftermath s s' c) (hc' : c' ∈ s'.live)
    (hid : c'.attempt.cycle = c.attempt.cycle) :
    c' = c ∧ ∃ deadline late send, c.phase = .waiting deadline late send := by
  have idle : ∀ {x : LiveCycle} {deadline : Nat}, x ∈ s'.live → x.phase ≠ .idle deadline := by
    intro x deadline hx hp
    have := hr x hx
    rw [wakeTime_of_stopped hp hst] at this
    omega
  unfold Aftermath at ha
  cases hp : c.phase with
  | idle deadline =>
    rw [hp] at ha
    cases ha with
    | unseen _ hc => exact absurd hp (idle hc)
    | cancelled hg => exact absurd hid (hg c' hc')
  | waiting deadline late send =>
    rw [hp] at ha
    cases ha with
    | underWay hc => exact ⟨hs'.eq_of_mem hc hc' hid, deadline, late, send, rfl⟩
    | unseen _ _ hc _ hp' => exact absurd hp' (idle hc)
    | cancelled _ _ hg => exact absurd hid (hg c' hc')
    | delivered _ hg => exact absurd hid (hg c' hc')

/-- A sleep after a stop leaves only ticks that wait for an answer, and none if it is as long as
the longest wait. -/
theorem StoppedAs.sleep {s₀ : Scheduler} (h : s.StoppedAs s₀) (hs : s.Sound) (hs₀ : s₀.Sound)
    (hm : Moves s₀ s') (ms : Nat) :
    (∀ c ∈ (s'.sleep ms).live, c ∈ s.live ∧
      ∃ deadline late send, c.phase = .waiting deadline late send) ∧
    (s.cadence.responseTimeout ≤ ms → (s'.sleep ms).live = []) := by
  have hs' := hm.sound hs₀
  obtain ⟨hms, hrest, hnow⟩ := sleep_spec hs' ms
  have hall := hm.trans hms
  have hw := h.winds.trans (hall.windsDown h.winds.lifecycle)
  have key : ∀ c ∈ (s'.sleep ms).live, c ∈ s.live ∧
      ∃ deadline late send, c.phase = .waiting deadline late send := by
    intro c' hc'
    obtain ⟨c, hc, hid⟩ := List.mem_map.mp (hw.live.subset (List.mem_map_of_mem hc'))
    have ha := h.moves hs hs₀ hall hc
    obtain ⟨rfl, hp⟩ :=
      ha.of_atRest (hms.sound hs') hw.lifecycle hrest hc' (Prod.ext_iff.mp hid).1.symm
    exact ⟨hc, hp⟩
  refine ⟨key, fun hle => List.eq_nil_iff_forall_not_mem.mpr fun c hc => ?_⟩
  obtain ⟨hmem, deadline, late, send, hp⟩ := key c hc
  have hlt := hrest c hc
  have hend := conclude_le (deadline + late) c.attempt.timeout
    ((s'.sleep ms).bench.transport.settlement? send)
  have hbegan := ((hs.each c hmem).begun hp).1
  have htimeout := (hs.each c hmem).timeout
  have hgrow := hm.grows.now
  rw [h.now] at hgrow
  rw [wakeTime_waiting hp, hnow] at hlt
  change _ < (conclude (deadline + late) c.attempt.timeout _).1 at hlt
  omega

end Aftermath
end Scheduler

open Scheduler

/-- The call that stops a scheduler, through either face, and its being given up. -/
theorem stoppedAs_apply {m m' : Simulation}
    (stop : m.apply .stop = (some true, m') ∨
      m.scheduler.lifecycle = .running ∧ m' = (m.apply .drop).2) :
    m.scheduler.StoppedAs m'.scheduler := by
  rcases stop with stop | ⟨hrun, rfl⟩
  · by_cases hrun : m.scheduler.lifecycle = .running
    · simp only [Simulation.apply, Scheduler.stop, hrun, if_true, Prod.mk.injEq] at stop
      obtain ⟨-, rfl⟩ := stop
      by_cases hf : m.facade = .reporter
      · have hd := stoppedAs_shutDown m.scheduler
        have hn : m.scheduler.shutDown.WindsDown (m.scheduler.shutDown.note .reporterStopped) :=
          .of_note rfl rfl
        simp only [hf]
        exact ⟨hd.winds.trans hn, rfl, rfl, fun id =>
          (Entry.ofCycle_cons_other (by simp [Event.cycle?]) _ _).trans (hd.history id)⟩
      · simpa [hf] using stoppedAs_shutDown m.scheduler
    · simp [Simulation.apply, Scheduler.stop, hrun] at stop
  · simpa [Simulation.apply, Scheduler.drop, hrun] using stoppedAs_shutDown m.scheduler

/-- **A stop is final.** After a stop, or the drop of a running scheduler, and for every way of
going on: nothing is armed, built, sent or used up any more; a cycle that was idle is cancelled at
the time of the stop; a tick under way ends when its wait does, in a delivery that arms nothing or
a cancellation; and all this happens: a sleep leaves no idle cycle, and one as long as the response
timeout leaves none at all. -/
theorem stop_is_final {m m' : Simulation} {s : Scheduler} (h : Reachable m.scheduler)
    (stop : m.apply .stop = (some true, m') ∨
      m.scheduler.lifecycle = .running ∧ m' = (m.apply .drop).2)
    (moves : m'.scheduler.Moves s) :
    m.scheduler.WindsDown s ∧ (∀ c ∈ m.scheduler.live, Aftermath m.scheduler s c) ∧
      ∀ ms,
        (∀ c ∈ (s.sleep ms).live, c ∈ m.scheduler.live ∧
          ∃ deadline late send, c.phase = .waiting deadline late send) ∧
        (m.scheduler.cadence.responseTimeout ≤ ms → (s.sleep ms).live = []) := by
  have hst := stoppedAs_apply stop
  have hs := h.sound
  have hs' : m'.scheduler.Sound := by
    rcases stop with stop | ⟨-, rfl⟩
    · have := Simulation.moves_apply hs .stop
      rw [stop] at this
      exact this.sound hs
    · exact (Simulation.moves_apply hs .drop).sound hs
  exact ⟨hst.winds.trans (moves.windsDown hst.winds.lifecycle),
    fun c hc => hst.moves hs hs' moves hc, fun ms => hst.sleep hs hs' moves ms⟩

namespace Simulation

/-- A reporter with a tick under way since its start, and a refresh that was just asked for. -/
def busyStart : Simulation := sampled [.hold 0] .ack [.start, .sleep 7, .refresh]

/-- It is stopped, and 60 ms later nothing is live. -/
theorem busyStart_is_drained :
    busyStart.scheduler.live.length = 2 ∧ (busyStart.apply .stop).1 = some true ∧
      ((busyStart.apply .stop).2.scheduler.sleep 60).live = [] := by
  have stop : (busyStart.apply .stop).1 = some true := by decide
  have final := stop_is_final (reachable_sampled _ _ _) (.inl (Prod.ext stop rfl)) .refl
  exact ⟨by decide, stop, (final.2.2 60).2 (by decide)⟩

end Simulation
end Heartbeat
