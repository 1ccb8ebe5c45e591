import Heartbeat.Proofs.Bursts
import Heartbeat.Proofs.Histories

/-!
# Heartbeat.Proofs.Retries

That a cycle goes on until it ends, and that one with a limit ends in time.

* `begins_cons_le`, `begun_isChain` — a tick begins within a period or a timeout of the one before
  it, whichever is longer.
* `Recorded.isChain_beginnings`     — so do the ticks that the log tells of.
* `Recorded.now_le_turnBy`          — no live cycle misses its next turn.
* `Recorded.ending_by`              — a cycle with a limit that is gone has ended in time.
* `Gone.moves`                      — a cycle that is gone stays so.
-/

namespace Heartbeat

section Timetable

variable {start period timeout : Nat} {lasted : List Nat}

theorem begins_cons_le (start period : Nat) {w : Nat} (ws : List Nat) (hw : w ≤ timeout) :
    (slot start period (w :: ws)).begins ≤
      (slot start period ws).begins + max period timeout := by
  have hle := deadline_le_begins start period ws
  have hdeadline : (slot start period (w :: ws)).deadline ≤
      (slot start period ws).begins + period := by
    rw [deadline_cons, nextDeadline]
    split <;> omega
  have hbegins : (slot start period (w :: ws)).begins =
      max (slot start period (w :: ws)).deadline ((slot start period ws).begins + w) := rfl
  omega

theorem begins_le_add_mul (start period : Nat) (hl : ∀ w ∈ lasted, w ≤ timeout) :
    (slot start period lasted).begins ≤ start + lasted.length * max period timeout := by
  induction lasted with
  | nil => exact Nat.le_add_right _ _
  | cons w ws ih =>
    have hnext := begins_cons_le start period ws (hl w (List.mem_cons_self ..))
    have hearlier := ih fun x hx => hl x (List.mem_cons_of_mem _ hx)
    rw [List.length_cons, Nat.add_one_mul]
    omega

/-- From tick to tick, up to the one that is still to begin. -/
theorem begun_isChain (start period : Nat) (hl : ∀ w ∈ lasted, w ≤ timeout) :
    (begun start period lasted ++ [(slot start period lasted).begins]).IsChain
      fun b b' => b' ≤ b + max period timeout := by
  induction lasted with
  | nil => exact List.isChain_singleton _
  | cons w ws ih =>
    have hnext := begins_cons_le start period ws (hl w (List.mem_cons_self ..))
    have hearlier := ih fun x hx => hl x (List.mem_cons_of_mem _ hx)
    rw [begun, List.isChain_append]
    refine ⟨hearlier, List.isChain_singleton _, ?_⟩
    simpa using hnext

end Timetable

/-! ## The ticks of a course -/

theorem WaitEnds.lasted_le {began timeout lasted : Nat} {answer : Option Settlement} {o : Outcome}
    (h : WaitEnds began timeout answer lasted o) : lasted ≤ timeout := by
  cases h with
  | answered _ hle => omega
  | unanswered => exact Nat.le_refl _

theorem Lap.Happened.lasted_le {b : Bench} {a : Attempt} {begins : Nat} {x : Lap}
    (h : x.Happened b a begins) : x.lasted ≤ a.timeout := by
  cases h with
  | unsent => exact Nat.zero_le _
  | sent _ hw => exact hw.lasted_le

namespace Course

variable (k : Course) (c : Cadence)

/-- How far apart the ticks of a cycle begin at most. -/
def gap : Nat := max (k.policy c).period c.responseTimeout

/-- When a cycle with a limit has ended at the latest. -/
def limit : Nat := k.armed + (k.policy c).initialDelay + c.maxTries * k.gap c

/-- When a live cycle has its next turn at the latest: its next tick begins, or the one under way
ends. -/
def turnBy (laps : List Lap) : Stage → Nat
  | .waiting .. => (k.slot c laps).begins + c.responseTimeout
  | _ => (k.slot c laps).begins

end Course

namespace Scheduler

variable {s s' : Scheduler} {k : Course} {laps : List Lap} {stage : Stage} {c : LiveCycle}

theorem Ran.lasted_le (h : s.Ran k laps) :
    ∀ w ∈ laps.map Lap.lasted, w ≤ s.cadence.responseTimeout := by
  induction h with
  | armed => simp
  | lap _ _ _ hx _ ih => exact List.forall_mem_cons.mpr ⟨hx.lasted_le, ih⟩

theorem Ran.begins_le (h : s.Ran k laps) :
    (k.slot s.cadence laps).begins ≤
      k.armed + (k.policy s.cadence).initialDelay + laps.length * k.gap s.cadence := by
  have := begins_le_add_mul (k.armed + (k.policy s.cadence).initialDelay)
    (k.policy s.cadence).period h.lasted_le
  rwa [List.length_map] at this

/-- A cycle with a limit has begun no more ticks than that before it gives up. -/
theorem Ran.length_le_maxTries (h : s.Ran k laps) (hk : k.kind ≠ .fastBringup) :
    laps.length ≤ s.cadence.maxTries := by
  cases h with
  | armed => exact Nat.zero_le _
  | lap _ _ ha => exact k.allows_le s.cadence hk ha

theorem Ran.begins_le_limit (h : s.Ran k laps) (hk : k.kind ≠ .fastBringup) :
    (k.slot s.cadence laps).begins ≤ k.limit s.cadence := by
  have hbegins := h.begins_le
  have hmul := Nat.mul_le_mul_right (k.gap s.cadence) (h.length_le_maxTries hk)
  unfold Course.limit
  omega

/-- The ticks of a course begin within the gap of one another, and so would the next one. -/
theorem Ran.isChain (h : s.Ran k laps) :
    (Entry.beginnings (k.ticked s.cadence laps) ++ [(k.slot s.cadence laps).begins]).IsChain
      fun b b' => b' ≤ b + k.gap s.cadence := by
  rw [h.beginnings_eq]
  exact begun_isChain _ _ h.lasted_le

theorem Recorded.isChain_beginnings (h : s.Recorded k laps stage) :
    (Entry.beginnings (s.history k.id)).IsChain fun b b' => b' ≤ b + k.gap s.cadence := by
  have hchain := h.ran.isChain
  have hticked := (List.isChain_append.mp hchain).1
  rw [h.history, Course.entries, Entry.beginnings_append]
  cases stage with
  | idle | cancelled => exact (List.append_nil _).symm ▸ hticked
  | delivered late => cases late <;> exact (List.append_nil _).symm ▸ hticked
  | waiting | exhausted => exact hchain

/-! ## A live cycle -/

/-- No live cycle misses its next turn. -/
theorem Recorded.now_le_turnBy (h : s.Recorded k laps stage)
    (hc : k.live s.cadence laps stage = some c) :
    s.bench.now ≤ k.turnBy s.cadence laps stage ∧
      (s.AtRest → s.bench.now < k.turnBy s.cadence laps stage) := by
  have hmem := ((h.live c).mpr hc).1
  cases h.stands with
  | idle _ hn =>
    cases hc
    refine ⟨hn, fun hrest => ?_⟩
    exact Nat.lt_of_lt_of_le (hrest _ hmem) (s.wakeTime_idleCycle_le k laps)
  | @waiting d send _ _ _ _ _ hn =>
    cases hc
    have hend := conclude_le (k.slot s.cadence laps).begins s.cadence.responseTimeout
      (s.bench.transport.settlement? send)
    refine ⟨Nat.le_trans hn hend, fun hrest => ?_⟩
    have hlt := hrest _ hmem
    rw [wakeTime_waiting rfl, s.ending_waitingCycle] at hlt
    exact Nat.lt_of_lt_of_le hlt hend
  | delivered | rearmed | notRearmed | exhausted | cancelled => cases hc

/-- That turn is within the gap of the last tick begun. -/
theorem Recorded.turnBy_le (h : s.Recorded k laps stage)
    (hc : k.live s.cadence laps stage = some c) :
    ∀ b ∈ (Entry.beginnings (s.history k.id)).getLast?,
      k.turnBy s.cadence laps stage ≤ b + k.gap s.cadence := by
  have hnext := (List.isChain_append.mp h.ran.isChain).2.2
  intro b hb
  rw [h.history, Course.entries, Entry.beginnings_append] at hb
  cases stage with
  | idle =>
    rw [show Entry.beginnings (k.closing s.cadence laps .idle) = [] from rfl, List.append_nil] at hb
    exact hnext b hb _ rfl
  | waiting d send =>
    obtain rfl : (k.slot s.cadence laps).begins = b := by
      simpa [Course.closing, Entry.beginnings, Event.beginsTick, Event.isCall] using hb
    exact Nat.add_le_add_left (Nat.le_max_right _ _) _
  | delivered | exhausted | cancelled => cases hc

/-- For a cycle with a limit it is before that. -/
theorem Recorded.turnBy_le_limit (h : s.Recorded k laps stage) (hk : k.kind ≠ .fastBringup)
    (hc : k.live s.cadence laps stage = some c) :
    k.turnBy s.cadence laps stage ≤ k.limit s.cadence := by
  cases h.stands with
  | idle => exact h.ran.begins_le_limit hk
  | waiting _ ha =>
    have hbegins := h.ran.begins_le
    have hgap : s.cadence.responseTimeout ≤ k.gap s.cadence := Nat.le_max_right _ _
    have hmul := Nat.mul_le_mul_right (k.gap s.cadence) (k.allows_le s.cadence hk ha)
    rw [Nat.add_one_mul] at hmul
    simp only [Course.turnBy, Course.limit]
    omega
  | delivered | rearmed | notRearmed | exhausted | cancelled => cases hc

/-! ## A cycle that has ended -/

/-- A cycle with a limit that is gone has ended in time. -/
theorem Recorded.ending_by (h : s.Recorded k laps stage) (hk : k.kind ≠ .fastBringup)
    (hg : k.live s.cadence laps stage = none) :
    ∃ e ∈ s.history k.id, e.event.endsCycle = true ∧ e.time ≤ k.limit s.cadence := by
  rw [h.history]
  have hbegins := h.ran.begins_le_limit hk
  have closed : ∀ e ∈ k.closing s.cadence laps stage, e.event.endsCycle = true →
      e.time ≤ k.limit s.cadence →
      ∃ e ∈ k.entries s.cadence laps stage, e.event.endsCycle = true ∧
        e.time ≤ k.limit s.cadence :=
    fun e he hends hle => ⟨e, List.mem_append_right _ he, hends, hle⟩
  have delivered (hd : laps.head?.map Lap.outcome = some .success) :
      ∃ e ∈ k.entries s.cadence laps stage, e.event.endsCycle = true ∧
        e.time ≤ k.limit s.cadence := by
    have hended := Nat.le_trans (k.ended_le_begins s.cadence laps) hbegins
    match laps, hd with
    | .sent d lasted o :: earlier, hd =>
      cases hd
      refine ⟨⟨_, (k.attempt s.cadence earlier).count.verdict .success⟩,
        List.mem_append_left _ (List.mem_append_right _ ?_), rfl, hended⟩
      exact List.mem_cons_of_mem _ (List.mem_singleton_self _)
  cases h.stands with
  | idle | waiting => cases hg
  | delivered hd | rearmed hd | notRearmed hd => exact delivered hd
  | exhausted => exact closed _ (List.mem_singleton_self _) rfl hbegins
  | cancelled _ _ _ ht => exact closed _ (List.mem_singleton_self _) rfl (Nat.le_trans ht hbegins)

/-- A cycle that is gone stays as it is. -/
theorem Gone.spared {id : Nat} (hg : s.Gone id) (hs : Reachable s) (hid : id < s.nextCycle)
    (hm : s.Moves s') : Spares s s' id := by
  induction hm with
  | refl => exact ⟨rfl, fun _ _ => Iff.rfl⟩
  | tail hm hlast ih =>
    have hlt := Nat.lt_of_lt_of_le hid (hm.nextCycle_le hs)
    rcases hlast.spares (.inl hlt) with hsp | ⟨l, c, r, hl, hc, _⟩
    · exact ih.trans hsp
    · exact absurd hc (ih.gone hg c (by simp [hl]))

theorem Gone.moves {id : Nat} (hg : s.Gone id) (hs : Reachable s) (hid : id < s.nextCycle)
    (hm : s.Moves s') : s'.Gone id :=
  (hg.spared hs hid hm).gone hg

/-- The log tells that a cycle has ended by a time, and it is never live again. -/
structure EndedBy (s : Scheduler) (id limit : Nat) : Prop where
  told : ∃ e ∈ s.history id, e.event.endsCycle = true ∧ e.time ≤ limit
  inactive : ∀ s', s.Moves s' → s'.Gone id

/-- Past its limit, and at it once all that is ready has been polled, a cycle has ended. -/
theorem Recorded.endedBy (hs : Reachable s) (h : s.Recorded k laps stage)
    (hk : k.kind ≠ .fastBringup)
    (hn : k.limit s.cadence < s.bench.now ∨ k.limit s.cadence ≤ s.bench.now ∧ s.AtRest) :
    s.EndedBy k.id (k.limit s.cadence) := by
  have hnone : k.live s.cadence laps stage = none := by
    rw [Option.eq_none_iff_forall_not_mem]
    intro c hc
    obtain ⟨hle, hlt⟩ := h.now_le_turnBy hc
    have hturn := h.turnBy_le_limit hk hc
    rcases hn with hn | ⟨hn, hrest⟩
    · omega
    · have := hlt hrest
      omega
  have hgone : s.Gone k.id := by
    intro c hc hid
    have hlive := (h.live c).mp ⟨hc, hid⟩
    rw [hnone] at hlive
    cases hlive
  exact ⟨h.ending_by hk hnone, fun _ hm => hgone.moves hs h.named hm⟩

end Scheduler

open Scheduler

/-- **Retries never stall, and limited cycles end.** Whatever comes of the answers, the ticks of a
cycle begin within the send interval or the response timeout of one another, whichever is longer,
and as long as the cycle is live no more time than that has passed since the last one. A refresh,
slow or ad hoc, has ended once all its tries may have taken so long; from then on it is not live. -/
theorem retries_never_stall {s : Scheduler} (h : Reachable s) {time id delay : Nat}
    {kind : CycleKind} (armed : ⟨time, .armed id kind delay⟩ ∈ s.bench.log) :
    let gap := max s.cadence.sendInterval s.cadence.responseTimeout
    let limit := time + delay + s.cadence.maxTries * gap
    (Entry.beginnings (s.history id)).IsChain (fun b b' => b' ≤ b + gap) ∧
    (∀ c ∈ s.live, c.attempt.cycle = id → ∀ b ∈ (Entry.beginnings (s.history id)).getLast?,
      s.bench.now ≤ b + gap ∧ (s.AtRest → s.bench.now < b + gap)) ∧
    (kind ≠ .fastBringup →
      (limit < s.bench.now ∨ limit ≤ s.bench.now ∧ s.AtRest → s.EndedBy id limit) ∧
      ∀ ms, limit ≤ s.bench.now + ms → (s.sleep ms).EndedBy id limit) := by
  obtain ⟨rfl, laps, stage, hr⟩ := h.recorded armed
  have hperiod := period_ofKind s.cadence kind
  rw [← hperiod]
  refine ⟨hr.isChain_beginnings, fun c hc hid b hb => ?_, fun hk => ⟨hr.endedBy h hk, ?_⟩⟩
  · have hlive := (hr.live c).mp ⟨hc, hid⟩
    obtain ⟨hle, hlt⟩ := hr.now_le_turnBy hlive
    have hturn := hr.turnBy_le hlive b hb
    exact ⟨Nat.le_trans hle hturn, fun hrest => Nat.lt_of_lt_of_le (hlt hrest) hturn⟩
  · intro ms hms
    obtain ⟨hm, hrest, hnow⟩ := sleep_spec h.sound ms
    have hsleep := h.moves hm
    obtain ⟨_, laps', stage', hr'⟩ := hsleep.recorded (hm.grows.log.subset armed)
    have hended := hr'.endedBy hsleep hk
    rw [hm.cadence_eq, hnow] at hended
    exact hended (.inr ⟨hms, hrest⟩)

namespace Simulation

/-- A reporter whose collector never answers, with a refresh asked for at the start. -/
def unanswered : Simulation := sampled [] (.hold 0) [.start, .refresh]

/-- The refresh gives up its second try, and itself, at 100 ms. -/
theorem unanswered_refresh_ends :
    ((unanswered.scheduler.sleep 100).history 2).getLast? = some ⟨100, .exhausted 2 .adHoc 2⟩ ∧
      (unanswered.scheduler.sleep 100).EndedBy 2 100 := by
  have armed : ⟨0, .armed 2 .adHoc 0⟩ ∈ unanswered.scheduler.bench.log := by decide
  have retries := retries_never_stall (reachable_sampled _ _ _) armed
  exact ⟨by decide, (retries.2.2 (by decide)).2 100 (by decide)⟩

end Simulation
end Heartbeat
