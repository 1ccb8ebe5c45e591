import Heartbeat.Proofs.Draining
import Heartbeat.Proofs.Held

/-!
# Heartbeat.Proofs.Tandem

A tick that is under way at a stop ends as it would have without the stop.

* `Scheduler.TickOver` — the wait for a send is over, and the log tells how the tick ended.
* `Takes.tick`         — while time passes a tick ends when its wait does, and not before.
* `Tandem`             — a tick is at the same point in two runs, or has ended alike in both.
* `Tandem.runs`        — so it stays, whatever steps both are told to do.
* `Drains`             — what a stop comes to.
-/

namespace Heartbeat

/-- Whether an event tells that a cycle was completed. -/
def Event.isDelivery : Event → Bool
  | .delivered .. => true
  | _ => false

namespace Scheduler

variable {s s' : Scheduler} {c : LiveCycle} {deadline late send target time : Nat}
  {o : Outcome}

/-- The tick of cycle `c` that made a send has ended when the wait for it was over. -/
structure TickOver (s : Scheduler) (c : LiveCycle) (send time : Nat) (o : Outcome) : Prop where
  told : ⟨time, c.attempt.verdict o⟩ ∈ s.bench.log
  sent : ∃ x, s.bench.transport.sends[send]? = some x ∧ x.doneAt s.cadence.responseTimeout = time
  before : time ≤ s.bench.now

theorem TickOver.moves (h : TickOver s c send time o) (hm : s.Moves s') :
    TickOver s' c send time o := by
  obtain ⟨x, hx, hover⟩ := h.sent
  obtain ⟨y, hy, hkeeps⟩ := hm.grows.sends _ x hx
  refine ⟨hm.grows.log.subset h.told, ⟨y, hy, ?_⟩, Nat.le_trans h.before hm.grows.now⟩
  rw [hm.cadence_eq, hkeeps.doneAt_eq (hover ▸ h.before), hover]

/-- The wait of a tick under way is for the answer to its send. -/
theorem Reachable.doneAt_eq_ending (h : Reachable s) (hc : c ∈ s.live)
    (hp : c.phase = .waiting deadline late send) :
    ∃ x, s.bench.transport.sends[send]? = some x ∧
      x.doneAt s.cadence.responseTimeout = (s.ending c deadline late send).1 := by
  obtain ⟨x, hx, ht⟩ := h.sent_of_waiting hc hp
  refine ⟨x, hx, ?_⟩
  rw [h.ending_eq_doneAt hx ht, (h.sound.each c hc).timeout]

theorem ending_of_sends (hs : s'.bench.transport.sends[send]? = s.bench.transport.sends[send]?) :
    s'.ending c deadline late send = s.ending c deadline late send := by
  rw [ending, ending, Bench.awaits, Bench.awaits, Transport.settlement?, Transport.settlement?, hs]

/-! ## One tick while time passes -/

/-- The poll of a cycle that waits is told of first by how its tick ended. -/
theorem Turn.tick {l r : List LiveCycle} (hp : c.phase = .waiting deadline late send)
    (ht : Turn s l c r s') :
    ∃ more, s'.history c.attempt.cycle = s.history c.attempt.cycle ++
      ⟨s.bench.now, c.attempt.verdict (s.ending c deadline late send).2⟩ :: more := by
  have one : ∀ o : Outcome, Entry.ofCycle c.attempt.cycle
      (⟨s.bench.now, c.attempt.verdict o⟩ :: s.bench.log) =
        s.history c.attempt.cycle ++ [⟨s.bench.now, c.attempt.verdict o⟩] := fun o =>
    Entry.ofCycle_cons_self (c.attempt.cycle?_verdict o) _ _
  have two : ∀ e : Event, ∃ more, Entry.ofCycle c.attempt.cycle
      (⟨s.bench.now, e⟩ :: ⟨s.bench.now, c.attempt.verdict .success⟩ :: s.bench.log) =
        s.history c.attempt.cycle ++ ⟨s.bench.now, c.attempt.verdict .success⟩ :: more := by
    intro e
    by_cases he : e.cycle? = some c.attempt.cycle
    · exact ⟨[_], by rw [Entry.ofCycle_cons_self he, one, List.append_assoc, List.singleton_append]⟩
    · exact ⟨[], by rw [Entry.ofCycle_cons_other he, one]⟩
  cases ht with
  | cancelled hp' | exhausted hp' | unsent hp' | sent hp' => rw [hp] at hp'; cases hp'
  | retried hp' ho | delivered hp' ho =>
    rw [hp] at hp'
    cases hp'
    rw [ho]
    exact ⟨[], one _⟩
  | rearmed hp' ho | notRearmed hp' ho =>
    rw [hp] at hp'
    cases hp'
    rw [ho]
    exact two _

/-- The clock stands at the end of the wait when a cycle that waits is polled. -/
theorem now_wait_wakeTime (h : s.Sound) (hc : c ∈ s.live)
    (hp : c.phase = .waiting deadline late send) :
    (s.wait (s.wakeTime c)).bench.now = (s.ending c deadline late send).1 := by
  rw [wakeTime_waiting hp]
  exact Nat.max_eq_right ((h.each c hc).begun hp).2.2

/-- One poll ends the tick of the cycle polled and no other. -/
theorem Advances.tick (h : s.Sound) (hc : c ∈ s.live)
    (hp : c.phase = .waiting deadline late send) (ha : Advances target s s') :
    (c ∈ s'.live ∧ s'.history c.attempt.cycle = s.history c.attempt.cycle) ∨
      (s.ending c deadline late send).1 ≤ target ∧
        s'.bench.now = (s.ending c deadline late send).1 ∧
        ∃ more, s'.history c.attempt.cycle = s.history c.attempt.cycle ++
          ⟨(s.ending c deadline late send).1,
            c.attempt.verdict (s.ending c deadline late send).2⟩ :: more := by
  obtain ⟨l, x, r, hl, hw, hwait, ht⟩ := ha.turn
  by_cases hid : x.attempt.cycle = c.attempt.cycle
  · obtain rfl : c = x := h.eq_of_cycle_eq hl hc hid.symm
    right
    rw [wakeTime_waiting hp] at hw
    have hnow := now_wait_wakeTime h hc hp
    obtain ⟨more, hmore⟩ := ht.tick hp
    rw [hnow] at hmore
    exact ⟨hw, ht.now_eq.trans hnow, more, hmore⟩
  · have hspares := ht.spares (s := s.wait _) hl (.inl (h.each c hc).named) hid
    exact .inl ⟨(hspares.live c rfl).mpr hc, hspares.history⟩

theorem Advances.getElem?_sends (h : Advances target s s')
    (hs : send < s.bench.transport.sends.length) :
    s'.bench.transport.sends[send]? = s.bench.transport.sends[send]? := by
  obtain ⟨l, c, r, _, _, _, ht⟩ := h.turn
  obtain ⟨more, hmore⟩ := ht.sends
  rw [hmore]
  exact List.getElem?_append_left hs

/-- Time that passes settles nothing. -/
theorem Passes.getElem?_sends (h : Passes target s s')
    (hs : send < s.bench.transport.sends.length) :
    s'.bench.transport.sends[send]? = s.bench.transport.sends[send]? := by
  induction h with
  | rest => rfl
  | step ha _ ih =>
    exact (ih (Nat.lt_of_lt_of_le hs ha.moves.grows.sends_length_le)).trans (ha.getElem?_sends hs)

/-- While time passes a tick ends when its wait does. -/
theorem Passes.tick (h : Reachable s) (hc : c ∈ s.live)
    (hp : c.phase = .waiting deadline late send) (hpass : Passes target s s') :
    (c ∈ s'.live ∧ target < (s.ending c deadline late send).1) ∨
      (s.ending c deadline late send).1 ≤ target ∧
        TickOver s' c send (s.ending c deadline late send).1
          (s.ending c deadline late send).2 := by
  induction hpass with
  | rest hrest => exact .inl ⟨hc, wakeTime_waiting hp ▸ hrest c hc⟩
  | @step s s₁ s' ha hpass ih =>
    obtain ⟨x, hx, hover⟩ := h.doneAt_eq_ending hc hp
    have hsame := ha.getElem?_sends (List.getElem?_eq_some_iff.mp hx).1
    rcases ha.tick h.sound hc hp with ⟨hc₁, _⟩ | ⟨hle, hnow, more, hmore⟩
    · rw [← ending_of_sends hsame]
      exact ih (h.moves ha.moves) hc₁
    · have htold : ⟨(s.ending c deadline late send).1,
          c.attempt.verdict (s.ending c deadline late send).2⟩ ∈
            s₁.history c.attempt.cycle := by
        simp [hmore]
      have hover₁ : TickOver s₁ c send (s.ending c deadline late send).1
          (s.ending c deadline late send).2 :=
        ⟨mem_log_of_mem_history htold, ⟨x, hsame.trans hx, by rw [ha.moves.cadence_eq, hover]⟩,
          Nat.le_of_eq hnow.symm⟩
      exact .inr ⟨hle, hover₁.moves hpass.moves⟩

/-! ## Nothing but calls -/

/-- Between two states no tick has begun or ended. -/
structure Quiet (s s' : Scheduler) : Prop where
  sends : s'.bench.transport.sends.length = s.bench.transport.sends.length
  live : ∀ c ∈ s.live, c ∈ s'.live
  waiting : ∀ c ∈ s'.live, ∀ deadline late send, c.phase = .waiting deadline late send →
    c ∈ s.live
  history : ∀ c ∈ s.live, s'.history c.attempt.cycle = s.history c.attempt.cycle
  log : s.AddsNo Event.isDelivery s'

namespace Quiet

theorem refl (s : Scheduler) : Quiet s s :=
  ⟨rfl, fun _ hc => hc, fun _ hc _ _ _ _ => hc, fun _ _ => rfl, .refl _ _⟩

theorem note {e : Event} (he : e.cycle? = none) : Quiet s (s.note e) :=
  { refl s with
    history := fun _ _ => Entry.ofCycle_cons_other (by simp [he]) _ _
    log := .of_cons rfl (by cases e <;> first | rfl | cases he) }

theorem arm (x : Cycle) (hn : ∀ c ∈ s.live, c.attempt.cycle ≠ s.nextCycle) :
    Quiet s (s.arm x) where
  sends := rfl
  live _ hc := List.mem_append_left _ hc
  waiting c hc deadline late send hp := by
    rcases List.mem_append.mp hc with hc | hc
    · exact hc
    · cases List.mem_singleton.mp hc
      cases hp
  history c hc := Entry.ofCycle_cons_other (by simpa [Event.cycle?] using (hn c hc).symm) _ _
  log := .of_cons rfl rfl

theorem wait (s : Scheduler) (time : Nat) : Quiet s (s.wait time) := { refl s with }

theorem release (s : Scheduler) (reply : Reply) : Quiet s (s.release reply) :=
  { refl s with sends := Transport.sends_length_release _ _ _ }

/-- The state that a scheduler is in does not matter. -/
theorem of_lifecycle {x : Lifecycle} (h : Quiet { s with lifecycle := x } s') : Quiet s s' :=
  ⟨h.sends, h.live, h.waiting, h.history, h.log⟩

end Quiet
end Scheduler

open Scheduler

/-- Whether a step takes no time and settles nothing. -/
def Step.isCall : Step → Bool
  | .start | .stop | .refresh | .drop => true
  | .sleep _ | .stopped _ | .release _ => false

namespace Simulation

variable {m m' n n' : Simulation} {step : Step} {steps : List Step}
  {returned returned' : Option Bool} {reports reports' : List Report} {c : LiveCycle}
  {deadline late send ms : Nat}

/-- A step that takes time lets a tick go on to its end, or takes all its time before. -/
theorem Takes.tick (h : Reachable m.scheduler) (hc : c ∈ m.scheduler.live)
    (hp : c.phase = .waiting deadline late send) (ht : Takes m step returned m')
    (hstep : step = .sleep ms ∨ step = .stopped ms) :
    (c ∈ m'.scheduler.live ∧
        m.scheduler.bench.now + ms < (m.scheduler.ending c deadline late send).1 ∧
        m'.scheduler.bench.now = m.scheduler.bench.now + ms ∧
        m'.scheduler.bench.transport.sends[send]? =
          m.scheduler.bench.transport.sends[send]?) ∨
      (m.scheduler.ending c deadline late send).1 ≤ m.scheduler.bench.now + ms ∧
        TickOver m'.scheduler c send (m.scheduler.ending c deadline late send).1
          (m.scheduler.ending c deadline late send).2 := by
  have hsend := ((h.sound.each c hc).begun hp).2.1
  have waited : ∀ {s : Scheduler}, Passes (m.scheduler.bench.now + ms) m.scheduler s →
      (c ∈ s.live ∧ m.scheduler.bench.now + ms < (m.scheduler.ending c deadline late send).1 ∧
        (s.wait (m.scheduler.bench.now + ms)).bench.now = m.scheduler.bench.now + ms ∧
        s.bench.transport.sends[send]? = m.scheduler.bench.transport.sends[send]?) ∨
      (m.scheduler.ending c deadline late send).1 ≤ m.scheduler.bench.now + ms ∧
        TickOver (s.wait (m.scheduler.bench.now + ms)) c send
          (m.scheduler.ending c deadline late send).1
          (m.scheduler.ending c deadline late send).2 := by
    intro s hpass
    rcases hpass.tick h hc hp with ⟨hc', hlt⟩ | ⟨hle, hover⟩
    · exact .inl ⟨hc', hlt, Nat.max_eq_right (hpass.now_le (Nat.le_add_right _ _)),
        hpass.getElem?_sends hsend⟩
    · refine .inr ⟨hle, hover.moves (.single (.wait _ fun x hx => ?_))⟩
      exact Nat.le_of_lt (hpass.atRest x hx)
  have hms : ∀ k, step = .sleep k ∨ step = .stopped k → k = ms := by
    rintro k (rfl | rfl) <;> simpa using hstep
  cases ht with
  | sleep hpass =>
    obtain rfl := hms _ (.inl rfl)
    exact waited hpass
  | drained hd => exact absurd hc (by simp [(isDrained_iff.mp hd).2])
  | drains hd hpass hs hlt =>
    obtain rfl := hms _ (.inr rfl)
    rcases hpass.tick h hc hp with ⟨hc', _⟩ | hover
    · exact absurd hc' (by simp [(isDrained_iff.mp hs).2])
    · exact .inr hover
  | waitsInVain hd hpass =>
    obtain rfl := hms _ (.inr rfl)
    exact waited hpass
  | start | stop | refresh | release | drop => rcases hstep with h | h <;> cases h

/-- A call leaves the clock, the transport and the ticks under way alone. -/
theorem Takes.call (hs : m.scheduler.Sound) (ht : Takes m step returned m')
    (hcall : step.isCall = true) :
    m'.scheduler.bench.now = m.scheduler.bench.now ∧
      m'.scheduler.bench.transport = m.scheduler.bench.transport ∧
      Quiet m.scheduler m'.scheduler := by
  have hn : ∀ c ∈ m.scheduler.live, c.attempt.cycle ≠ m.scheduler.nextCycle := fun c hc =>
    Nat.ne_of_lt (hs.each c hc).named
  cases ht with
  | start =>
    simp only [apply, Scheduler.start]
    split
    · exact ⟨rfl, rfl, .of_lifecycle (.arm _ hn)⟩
    · exact ⟨rfl, rfl, .note rfl⟩
  | stop =>
    rw [stop_scheduler]
    split_ifs
    · exact ⟨rfl, rfl, .of_lifecycle (.note rfl)⟩
    · exact ⟨rfl, rfl, .of_lifecycle (.refl _)⟩
    · exact ⟨rfl, rfl, .note rfl⟩
  | refresh =>
    simp only [apply, Scheduler.refresh]
    split
    · exact ⟨rfl, rfl, .arm _ hn⟩
    · exact ⟨rfl, rfl, .note rfl⟩
  | drop =>
    simp only [apply, Scheduler.drop]
    split
    · exact ⟨rfl, rfl, .of_lifecycle (.refl _)⟩
    · exact ⟨rfl, rfl, .refl _⟩
  | release | sleep | drained | drains | waitsInVain => cases hcall

end Simulation

/-! ## Two runs -/

/-- The tick in which cycle `c` waits for a send is at the same point in both, or has ended in both
at one time and in one way. -/
inductive Tandem (c : LiveCycle) (send : Nat) (s t : Scheduler) : Prop where
  | underWay :
      c ∈ s.live → c ∈ t.live → t.bench.now = s.bench.now →
      t.bench.transport.sends[send]? = s.bench.transport.sends[send]? → Tandem c send s t
  | ended {time : Nat} {o : Outcome} :
      TickOver s c send time o → TickOver t c send time o → Tandem c send s t

namespace Tandem

open Simulation

variable {m m' n n' : Simulation} {step : Step} {steps : List Step}
  {returned returned' : Option Bool} {reports reports' : List Report} {c : LiveCycle}
  {deadline late send : Nat}

theorem release {s t : Scheduler} (hs : Reachable s) (ht : Reachable t)
    (hscript : t.bench.transport.script.item = s.bench.transport.script.item)
    (hnow : t.bench.now = s.bench.now) (hsend : send < s.bench.transport.sends.length)
    (hsame : t.bench.transport.sends[send]? = s.bench.transport.sends[send]?) (r : Reply) :
    (t.release r).bench.transport.sends[send]? = (s.release r).bench.transport.sends[send]? := by
  cases r with
  | hold => exact hsame
  | after delay answer =>
    have hx := List.getElem?_eq_getElem hsend
    have hs' := Transport.release_sends hs.follows.transport hs.holding s.bench.now delay answer hx
    have ht' := Transport.release_sends ht.follows.transport ht.holding t.bench.now delay answer
      (hsame.trans hx)
    refine ht'.trans (Eq.trans ?_ hs'.symm)
    rw [hscript, hnow]

/-- Both let time pass. -/
theorem timed {ms : Nat} (hc : c ∈ m.scheduler.live) (hc' : c ∈ n.scheduler.live)
    (hp : c.phase = .waiting deadline late send)
    (hnow : n.scheduler.bench.now = m.scheduler.bench.now)
    (hsame : n.scheduler.bench.transport.sends[send]? = m.scheduler.bench.transport.sends[send]?)
    (hm : Reachable m.scheduler) (hn : Reachable n.scheduler)
    (hstep : step = .sleep ms ∨ step = .stopped ms) (ht : Takes m step returned m')
    (ht' : Takes n step returned' n') : Tandem c send m'.scheduler n'.scheduler := by
  have htick := ht.tick hm hc hp hstep
  have htick' := ht'.tick hn hc' hp hstep
  rw [hnow, ending_of_sends hsame] at htick'
  rcases htick with ⟨hl, hlt, hk, hs⟩ | ⟨hle, hover⟩
  · rcases htick' with ⟨hl', _, hk', hs'⟩ | ⟨hle, _⟩
    · exact .underWay hl hl' (by rw [hk, hk']) (by rw [hs, hs', hsame])
    · omega
  · rcases htick' with ⟨_, hlt, _⟩ | ⟨_, hover'⟩
    · omega
    · exact .ended hover hover'

/-- Both do the same step. -/
theorem takes (h : Tandem c send m.scheduler n.scheduler)
    (hp : c.phase = .waiting deadline late send) (hm : Reachable m.scheduler)
    (hn : Reachable n.scheduler)
    (hscript : n.scheduler.bench.transport.script.item = m.scheduler.bench.transport.script.item)
    (ht : Takes m step returned m') (ht' : Takes n step returned' n') :
    Tandem c send m'.scheduler n'.scheduler := by
  cases h with
  | ended h h' => exact .ended (h.moves (ht.moves hm.sound)) (h'.moves (ht'.moves hn.sound))
  | underWay hc hc' hnow hsame =>
    cases step with
    | start | stop | refresh | drop =>
      obtain ⟨hk, hs, hquiet⟩ := ht.call hm.sound rfl
      obtain ⟨hk', hs', hquiet'⟩ := ht'.call hn.sound rfl
      exact .underWay (hquiet.live c hc) (hquiet'.live c hc') (by rw [hk, hk', hnow])
        (by rw [hs, hs', hsame])
    | sleep => exact timed hc hc' hp hnow hsame hm hn (.inl rfl) ht ht'
    | stopped => exact timed hc hc' hp hnow hsame hm hn (.inr rfl) ht ht'
    | release r =>
      cases ht
      cases ht'
      have hsend := ((hm.sound.each c hc).begun hp).2.1
      exact .underWay hc hc' hnow (release hm hn hscript hnow hsend hsame r)

/-- Both do the same steps. -/
theorem runs (h : Tandem c send m.scheduler n.scheduler)
    (hp : c.phase = .waiting deadline late send) (hm : Reachable m.scheduler)
    (hn : Reachable n.scheduler)
    (hscript : n.scheduler.bench.transport.script.item = m.scheduler.bench.transport.script.item)
    (hr : Runs m steps reports m') (hr' : Runs n steps reports' n') :
    Tandem c send m'.scheduler n'.scheduler := by
  induction hr generalizing n reports' with
  | nil =>
    cases hr'
    exact h
  | cons ht _ ih =>
    cases hr' with
    | cons ht' hr' =>
      have hmoves := ht.moves hm.sound
      have hmoves' := ht'.moves hn.sound
      refine ih (h.takes hp hm hn hscript ht ht') (hm.moves hmoves) (hn.moves hmoves') ?_ hr'
      rw [hmoves'.grows.script, hmoves.grows.script, hscript]

end Tandem

/-! ## What a stop comes to -/

/-- What a stop in `s` has come to in `m`. -/
structure Drains (s : Scheduler) (m : Simulation) : Prop where
  soon : s.drainTime m.scheduler ≤ s.bench.now + s.cadence.responseTimeout
  /-- Something is live before the drain time. -/
  busy : m.scheduler.bench.now < s.drainTime m.scheduler → m.scheduler.live ≠ []
  /-- Nothing is from then on, once all that is ready has been polled. -/
  done : m.scheduler.AtRest → s.drainTime m.scheduler ≤ m.scheduler.bench.now →
    m.scheduler.live = []
  past : m.scheduler.live ≠ [] → m.scheduler.bench.now ≤ s.drainTime m.scheduler
  /-- So it stays, and so does the drain time. -/
  forGood : s.drainTime m.scheduler ≤ m.scheduler.bench.now → ∀ s', m.scheduler.Moves s' →
    s.drainTime s' = s.drainTime m.scheduler ∧ (m.scheduler.live = [] → s'.live = [])
  /-- A wait for the end is over at once if nothing is live, and else at the drain time. -/
  stopped : ∀ ms returned m', m.Takes (.stopped ms) returned m' →
    (returned = some true ↔
      m.scheduler.live = [] ∨ s.drainTime m.scheduler < m.scheduler.bench.now + ms) ∧
    (returned = some true →
      m'.scheduler.bench.now = max m.scheduler.bench.now (s.drainTime m.scheduler))

theorem Scheduler.Winding.drains {s : Scheduler} {m : Simulation}
    (h : Winding s m.scheduler) : Drains s m where
  soon := h.drainTime_le
  busy := h.live_ne_nil
  done hrest hle := by
    by_contra hl
    have := h.now_lt hrest hl
    omega
  past := h.now_le
  forGood hle s' hm := by
    refine ⟨h.drainTime_eq hle hm, fun hl => ?_⟩
    have hsub := (hm.windsDown h.winds.lifecycle).live
    rw [hl, List.map_nil, List.sublist_nil, List.map_eq_nil_iff] at hsub
    exact hsub
  stopped _ _ _ ht := h.takes_stopped ht

open Simulation

/-- **A stop is over as the last tick ends.** No wait for the end is over while a scheduler is
created or running. After a stop it is over at the time of the stop, or at the end of the last tick
that was then under way, and within the response timeout; something is live before, and nothing from
then on. And each of those ticks ends when its wait for an answer does, as it does in every run
that has the same steps without the stop. -/
theorem drains_as_last_tick_ends {m : Simulation} (h : Reachable m.scheduler) :
    (m.scheduler.lifecycle ≠ .stopped → ∀ ms returned m', m.Takes (.stopped ms) returned m' →
      returned = some false) ∧
    ∀ m', m.apply .stop = (some true, m') →
      (∀ steps reports n, Runs m' steps reports n → Drains m.scheduler n) ∧
      ∀ c ∈ m.scheduler.live, ∀ deadline late send, c.phase = .waiting deadline late send →
        ∀ steps reports reports' n n', Runs m' steps reports n → Runs m steps reports' n' →
          Tandem c send n.scheduler n'.scheduler := by
  refine ⟨fun hs _ _ _ ht => ht.not_stopped hs, fun m' stop => ?_⟩
  have hst := stoppedAs_apply (.inl stop)
  have hmoves : m.scheduler.Moves m'.scheduler := by
    have := moves_apply h.sound .stop
    rwa [stop] at this
  refine ⟨fun steps reports n hr => ?_, fun c hc deadline late send hp => ?_⟩
  · exact Winding.drains ⟨h, _, hst, hmoves, hr.moves (hmoves.sound h.sound)⟩
  · intro steps reports reports' n n' hr hr'
    have ht : m.Takes .stop (some true) m' := by
      have := takes_apply h.sound .stop
      rwa [stop] at this
    obtain ⟨hnow, htr, hquiet⟩ := ht.call h.sound rfl
    have htandem : Tandem c send m'.scheduler m.scheduler :=
      .underWay (hquiet.live c hc) hc hnow.symm (by rw [htr])
    exact htandem.runs hp (h.moves hmoves) h (by rw [htr]) hr hr'

namespace Simulation

/-- A wait for the end of the reporter with a tick under way is in vain. It is stopped after 7 ms,
and then a wait is over as the tick ends after 50 ms. -/
theorem busyStart_drains :
    (busyStart.apply (.stopped 60)).1 = some false ∧
      (busyStart.apply .stop).1 = some true ∧
      ((busyStart.apply .stop).2.apply (.stopped 60)).1 = some true ∧
      ((busyStart.apply .stop).2.apply (.stopped 60)).2.scheduler.bench.now = 50 ∧
      ∃ c ∈ busyStart.scheduler.live, c.phase = .waiting 0 0 0 ∧
        Tandem c 0 ((busyStart.apply .stop).2.run [.sleep 60]).2.scheduler
          (busyStart.run [.sleep 60]).2.scheduler := by
  have reach : Reachable busyStart.scheduler := reachable_sampled _ _ _
  have stop : (busyStart.apply .stop).1 = some true := by decide
  have sound : (busyStart.apply .stop).2.scheduler.Sound :=
    (moves_apply reach.sound .stop).sound reach.sound
  obtain ⟨before, after⟩ := drains_as_last_tick_ends reach
  obtain ⟨drains, tandem⟩ := after (busyStart.apply .stop).2 (Prod.ext stop rfl)
  have wait := (drains [] [] _ .nil).stopped 60 _ _ (takes_apply sound _)
  have drainTime : busyStart.scheduler.drainTime (busyStart.apply .stop).2.scheduler = 50 := by
    decide
  have ended := wait.1.mpr (.inr (by rw [drainTime]; decide))
  refine ⟨before (by decide) 60 _ _ (takes_apply reach.sound _), stop, ended, ?_, ?_⟩
  · rw [wait.2 ended, drainTime]
    decide
  · have first : busyStart.scheduler.live[0].phase = .waiting 0 0 0 := by decide
    have member : busyStart.scheduler.live[0] ∈ busyStart.scheduler.live := List.getElem_mem _
    exact ⟨_, member, first, tandem _ member _ _ _ first _ _ _ _ _ (runs_run sound _)
      (runs_run reach.sound _)⟩

end Simulation
end Heartbeat
