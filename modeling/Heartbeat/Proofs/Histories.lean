import Heartbeat.Proofs.Arrangement
import Heartbeat.Proofs.Budget

/-!
# Heartbeat.Proofs.Histories

What a log can say, as a grammar of its events.

* `Story`      — the events of one cycle from its arming on; a whole story ends with the cycle.
* `Ran.failed` — the ticks of a course that did not deliver are told as the grammar has them.
* `sequel`     — what the end of a cycle leads to at the same instant.
* `Histories`  — the log is made of the stories of cycles that are numbered as they are armed.
-/

namespace Heartbeat

/-! ## The grammar -/

/-- The number under which a tick is told; a word of 64 bits counts no further. -/
def tickNumber (n : Nat) : Nat := min n Attempt.greatestTicks

/-- The events of a tick that does not deliver. Without a descriptor nothing is sent. -/
inductive FailedTick (id : Nat) (kind : CycleKind) (tick : Nat) : List Event → Prop where
  | unsent (message : String) :
      FailedTick id kind tick [.failed id kind tick ⟨.descriptor, message⟩]
  | failed (agentId : String) {f : Failure} : f.obstacle ≠ .descriptor →
      FailedTick id kind tick [.sending id agentId, .failed id kind tick f]
  | timedOut (agentId : String) :
      FailedTick id kind tick [.sending id agentId, .timedOut id kind tick]

/-- Ticks from the first one on that do not deliver, each within the tries. -/
inductive FailedTicks (id : Nat) (kind : CycleKind) (tries : MaxTries) :
    Nat → List Event → Prop where
  | none : FailedTicks id kind tries 0 []
  | more {n : Nat} {es tick : List Event} :
      FailedTicks id kind tries n es → tries.allows (n + 1) = true →
      FailedTick id kind (tickNumber (n + 1)) tick → FailedTicks id kind tries (n + 1) (es ++ tick)

/-- The events that end a cycle after `n` ticks that did not deliver. -/
inductive Ending (id : Nat) (kind : CycleKind) (tries : MaxTries) (n : Nat) :
    List Event → Prop where
  | delivered (agentId : String) : tries.allows (n + 1) = true →
      Ending id kind tries n [.sending id agentId, .delivered id kind (tickNumber (n + 1))]
  | notRearmed (agentId : String) : tries.allows (n + 1) = true → kind.isMain = true →
      Ending id kind tries n
        [.sending id agentId, .delivered id kind (tickNumber (n + 1)), .notRearmed id]
  | exhausted {pos : 0 < n} : tries = .limited n pos → Ending id kind tries n [.exhausted id kind n]
  | cancelled : Ending id kind tries n [.cancelled id kind]

/-- The events of a cycle that has had `n` ticks which did not deliver. -/
inductive Story (id : Nat) (kind : CycleKind) (policy : AttemptPolicy) (n : Nat) :
    (whole : Bool) → List Event → Prop where
  | between {es : List Event} : FailedTicks id kind policy.maxTries n es →
      Story id kind policy n false (.armed id kind policy.initialDelay :: es)
  | during {es : List Event} (agentId : String) : FailedTicks id kind policy.maxTries n es →
      policy.maxTries.allows (n + 1) = true →
      Story id kind policy n false
        (.armed id kind policy.initialDelay :: (es ++ [.sending id agentId]))
  | whole {es ending : List Event} : FailedTicks id kind policy.maxTries n es →
      Ending id kind policy.maxTries n ending →
      Story id kind policy n true (.armed id kind policy.initialDelay :: (es ++ ending))

/-- Any story can be brought to its end. -/
theorem Story.completes {id n : Nat} {kind : CycleKind} {policy : AttemptPolicy} {whole : Bool}
    {es : List Event} (h : Story id kind policy n whole es) :
    ∃ full, Story id kind policy n true full ∧ es <+: full := by
  cases h with
  | between hf =>
    refine ⟨_, .whole hf .cancelled, ?_⟩
    exact (List.prefix_cons_inj _).mpr (List.prefix_append _ _)
  | during agentId hf ha =>
    refine ⟨_, .whole hf (.delivered agentId ha), ?_⟩
    rw [List.prefix_cons_inj, List.prefix_append_right_inj]
    exact ⟨[_], rfl⟩
  | whole hf he => exact ⟨_, .whole hf he, List.prefix_rfl⟩

namespace Event

/-- The number of the cycle that an event arms. -/
def arming? : Event → Option Nat
  | .armed c .. => some c
  | _ => none

def endsCycle : Event → Bool
  | .delivered .. | .exhausted .. | .cancelled .. => true
  | _ => false

theorem endsCycle_of_cycle? {e : Event} (h : e.cycle? = none) :
    e.arming? = none ∧ e.endsCycle = false := by
  cases e <;> first | exact ⟨rfl, rfl⟩ | cases h

end Event

theorem Attempt.endsCycle_verdict (a : Attempt) (o : Outcome) :
    (a.verdict o).arming? = none ∧ (a.verdict o).endsCycle = o.isSuccess := by
  cases o <;> exact ⟨rfl, rfl⟩

/-! ## The course of a cycle is a story -/

theorem Course.ticks_count_eq (k : Course) (c : Cadence) (laps : List Lap) :
    (k.attempt c laps).count.ticks = tickNumber (laps.length + 1) := by
  simp only [Attempt.count, attempt, tickNumber]
  omega

theorem Lap.Happened.failedTick {b : Bench} {k : Course} {c : Cadence} {earlier : List Lap}
    {begins : Nat} {x : Lap} (h : x.Happened b (k.attempt c earlier).count begins)
    (hx : x.outcome.isSuccess = false) :
    FailedTick k.id k.kind (tickNumber (earlier.length + 1))
      ((x.entries (k.attempt c earlier).count begins).map (·.event)) := by
  rw [← k.ticks_count_eq c]
  cases h with
  | unsent => exact .unsent _
  | @sent d send lasted o older _ hw =>
    cases o with
    | success => cases hx
    | timeout => exact .timedOut _
    | failure f =>
      refine .failed _ fun hf => hw.ne_descriptor f.message ?_
      rw [Outcome.fail, ← hf]

namespace Scheduler

variable {s s' : Scheduler} {k : Course} {laps : List Lap} {stage : Stage}

/-- By induction on the laps: each one adds its tick to those before it. -/
theorem Ran.failed (h : s.Ran k laps) (hf : Lap.AllFail laps) :
    ∃ es, (k.ticked s.cadence laps).map (·.event) =
        .armed k.id k.kind (k.policy s.cadence).initialDelay :: es ∧
      FailedTicks k.id k.kind (k.policy s.cadence).maxTries laps.length es := by
  induction h with
  | armed => exact ⟨[], rfl, .none⟩
  | @lap x earlier _ hearlier hallow hx _ ih =>
    obtain ⟨es, hes, ticks⟩ := ih hearlier
    have tick := hx.failedTick (hf x (List.mem_cons_self ..))
    refine ⟨_, ?_, .more ticks hallow tick⟩
    rw [Course.ticked, List.map_append, hes, List.cons_append]

/-- The delivery of a cycle is its last tick. -/
theorem Ran.delivered (h : s.Ran k laps) (hd : laps.head?.map Lap.outcome = some .success) :
    ∃ n es agentId, (k.ticked s.cadence laps).map (·.event) =
        .armed k.id k.kind (k.policy s.cadence).initialDelay ::
          (es ++ [.sending k.id agentId, .delivered k.id k.kind (tickNumber (n + 1))]) ∧
      FailedTicks k.id k.kind (k.policy s.cadence).maxTries n es ∧
      (k.policy s.cadence).maxTries.allows (n + 1) = true ∧ n < laps.length := by
  cases h with
  | armed => cases hd
  | @lap x earlier hran hearlier hallow hx =>
    obtain ⟨es, hes, ticks⟩ := hran.failed hearlier
    have hnumber := k.ticks_count_eq s.cadence earlier
    simp only [List.head?_cons, Option.map_some, Option.some.injEq] at hd
    cases x with
    | unsent chain => cases hd
    | sent d lasted o =>
      cases hd
      refine ⟨earlier.length, es, d.agentId, ?_, ticks, hallow, Nat.lt_succ_self _⟩
      rw [Course.ticked, List.map_append, hes, ← hnumber]
      rfl

/-- Ticks come at least a millisecond apart. -/
theorem Ran.length_le_now (h : s.Ran k laps) : laps.length ≤ s.bench.now + 1 := by
  cases h with
  | armed => exact Nat.zero_le _
  | @lap x earlier _ _ _ _ he =>
    have hrate := k.add_mul_le_begins s.cadence earlier
    have hends : (k.slot s.cadence earlier).begins ≤ k.ended s.cadence (x :: earlier) :=
      Nat.le_add_right _ _
    have hmul := Nat.le_mul_of_pos_right earlier.length (k.policy s.cadence).period_pos
    rw [List.length_cons]
    omega

/-- Tries that are used up after ticks that were within them are as many as those. -/
theorem Ran.limited (h : s.Ran k laps)
    (ha : (k.policy s.cadence).maxTries.allows (laps.length + 1) = false) :
    ∃ pos, (k.policy s.cadence).maxTries = .limited laps.length pos := by
  cases hm : (k.policy s.cadence).maxTries with
  | unbounded => rw [hm] at ha; cases ha
  | limited n pos =>
    have hmore : ¬ laps.length + 1 ≤ n := by simpa [hm, MaxTries.allows] using ha
    have hlast : laps.length ≤ n := by
      cases h with
      | armed => exact Nat.zero_le _
      | lap _ _ hallow => simpa [hm, MaxTries.allows] using hallow
    have : laps.length = n := by omega
    subst this
    exact ⟨pos, rfl⟩

/-- What is told of a cycle on its course is its story, and a whole one once it is gone. -/
theorem Recorded.story (h : s.Recorded k laps stage) :
    ∃ n whole, Story k.id k.kind (k.policy s.cadence) n whole
        ((s.history k.id).map (·.event)) ∧
      (whole = false ↔ ∃ c ∈ s.live, c.attempt.cycle = k.id) ∧ n ≤ s.bench.now + 1 := by
  have few := h.ran.length_le_now
  have alive {c : LiveCycle} (hc : k.live s.cadence laps stage = some c) :
      false = false ↔ ∃ c ∈ s.live, c.attempt.cycle = k.id :=
    ⟨fun _ => ⟨c, (h.live c).mpr hc⟩, fun _ => rfl⟩
  have gone (hn : k.live s.cadence laps stage = none) :
      true = false ↔ ∃ c ∈ s.live, c.attempt.cycle = k.id := by
    refine ⟨fun ht => (by cases ht), ?_⟩
    rintro ⟨c, hc⟩
    rw [(h.live c).mp hc] at hn
    cases hn
  rw [h.history, Course.entries, List.map_append]
  cases h.stands with
  | idle hf =>
    obtain ⟨es, hes, ticks⟩ := h.ran.failed hf
    refine ⟨_, _, ?_, alive rfl, few⟩
    rw [hes]
    simpa [Course.closing] using Story.between ticks
  | @waiting d send older hf ha =>
    obtain ⟨es, hes, ticks⟩ := h.ran.failed hf
    refine ⟨_, _, ?_, alive rfl, few⟩
    rw [hes]
    exact .during d.agentId ticks ha
  | exhausted hf ha =>
    obtain ⟨es, hes, ticks⟩ := h.ran.failed hf
    obtain ⟨pos, hlimit⟩ := h.ran.limited ha
    refine ⟨_, _, ?_, gone rfl, few⟩
    rw [hes]
    exact .whole ticks (.exhausted hlimit)
  | cancelled hf =>
    obtain ⟨es, hes, ticks⟩ := h.ran.failed hf
    refine ⟨_, _, ?_, gone rfl, few⟩
    rw [hes]
    exact .whole ticks .cancelled
  | delivered hd | rearmed hd =>
    obtain ⟨n, es, agentId, hes, ticks, hallow, hn⟩ := h.ran.delivered hd
    refine ⟨n, _, ?_, gone rfl, by omega⟩
    rw [hes]
    simpa [Course.closing] using Story.whole ticks (.delivered agentId hallow)
  | notRearmed hd hk =>
    obtain ⟨n, es, agentId, hes, ticks, hallow, hn⟩ := h.ran.delivered hd
    refine ⟨n, _, ?_, gone rfl, by omega⟩
    rw [hes]
    simpa [Course.closing] using Story.whole ticks (.notRearmed agentId hallow hk)

/-! ## Numbers and counts -/

/-- The numbers of the cycles armed so far, the first one first. -/
def armedCycles (s : Scheduler) : List Nat := (s.bench.log.filterMap (·.event.arming?)).reverse

/-- How many cycles have ended. -/
def endedCount (s : Scheduler) : Nat := s.bench.log.countP (·.event.endsCycle)

/-- The cycles armed are numbered from 1 on, and each of them is live or has ended. -/
structure Counted (s : Scheduler) : Prop where
  first : 0 < s.nextCycle
  numbered : s.armedCycles = List.range' 1 (s.nextCycle - 1)
  active : s.live.length + s.endedCount = s.armedCycles.length

/-- Entries that arm and end nothing leave the count as it is. -/
theorem Counted.keep (h : s.Counted) (new : List Entry) (hl : s'.bench.log = new ++ s.bench.log)
    (hn : ∀ e ∈ new, e.event.arming? = none ∧ e.event.endsCycle = false)
    (hi : s'.nextCycle = s.nextCycle) (hlive : s'.live.length = s.live.length) : s'.Counted := by
  have harmed : s'.armedCycles = s.armedCycles := by
    have hnone : new.filterMap (·.event.arming?) = [] :=
      List.filterMap_eq_nil_iff.mpr fun e he => (hn e he).1
    rw [armedCycles, hl, List.filterMap_append, hnone, List.nil_append, armedCycles]
  have hended : s'.endedCount = s.endedCount := by
    have hzero : new.countP (·.event.endsCycle) = 0 :=
      List.countP_eq_zero.mpr fun e he => by simp [(hn e he).2]
    rw [endedCount, hl, List.countP_append, hzero, Nat.zero_add, endedCount]
  exact ⟨hi ▸ h.first, by rw [harmed, hi, h.numbered], by rw [harmed, hlive, hended, h.active]⟩

theorem Counted.arm (h : s.Counted) (c : Cycle) : (s.arm c).Counted where
  first := Nat.succ_pos _
  numbered := by
    have hcount : s.nextCycle + 1 - 1 = s.nextCycle - 1 + 1 := by have := h.first; omega
    have hnext : 1 + (s.nextCycle - 1) = s.nextCycle := by have := h.first; omega
    have harmed : (s.arm c).armedCycles = s.armedCycles ++ [s.nextCycle] := by
      simp [armedCycles, Scheduler.arm, note, Bench.note, Event.arming?]
    rw [harmed, arm_nextCycle, hcount, List.range'_concat, h.numbered, Nat.one_mul, hnext]
  active := by
    have := h.active
    simp [armedCycles, endedCount, Scheduler.arm, note, Bench.note, Event.arming?,
      Event.endsCycle] at this ⊢
    omega

/-- A cycle ends. -/
theorem Counted.ends (h : s.Counted) {l r : List LiveCycle} {c : LiveCycle} {e : Event}
    (hl : s.live = l ++ c :: r) (he : e.arming? = none ∧ e.endsCycle = true) :
    Counted { s.note e with live := l ++ r } where
  first := h.first
  numbered := by
    have harmed : armedCycles { s.note e with live := l ++ r } = s.armedCycles := by
      simp [armedCycles, he.1]
    rw [harmed]
    exact h.numbered
  active := by
    have := h.active
    rw [hl] at this
    simp [armedCycles, endedCount, he] at this ⊢
    omega

theorem Turn.counted {l r : List LiveCycle} {c : LiveCycle} (h : s.Counted)
    (hl : s.live = l ++ c :: r) (ht : Turn s l c r s') : s'.Counted := by
  have hlive (c' : LiveCycle) : (l ++ c' :: r).length = s.live.length := by simp [hl]
  cases ht with
  | cancelled | exhausted => exact h.ends hl ⟨rfl, rfl⟩
  | unsent => exact h.keep [_] rfl (by simpa using ⟨rfl, rfl⟩) rfl (hlive _)
  | sent => exact h.keep [_] rfl (by simpa using ⟨rfl, rfl⟩) rfl (hlive _)
  | @retried _ _ _ o _ _ ho =>
    have hv := c.attempt.endsCycle_verdict o
    rw [ho] at hv
    exact h.keep [_] rfl (by simpa using hv) rfl (hlive _)
  | delivered => exact h.ends hl (c.attempt.endsCycle_verdict _)
  | rearmed => exact (h.ends hl (c.attempt.endsCycle_verdict _)).arm _
  | notRearmed =>
    exact (h.ends hl (c.attempt.endsCycle_verdict _)).keep [_] rfl
      (by simpa using ⟨rfl, rfl⟩) rfl rfl

theorem Move.counted (h : s.Counted) (hm : Move s s') : s'.Counted := by
  cases hm.effect with
  | started =>
    have hstart : Counted { s with lifecycle := .running } := ⟨h.first, h.numbered, h.active⟩
    exact hstart.arm _
  | refreshed => exact h.arm _
  | noted he =>
    exact h.keep [_] rfl (by simpa using Event.endsCycle_of_cycle? he) rfl rfl
  | shutDown | unchanged | released | waited => exact ⟨h.first, h.numbered, h.active⟩
  | polled hl _ ht => exact ht.counted h hl

theorem Reachable.counted (h : Reachable s) : s.Counted := by
  induction h with
  | fresh => exact ⟨Nat.one_pos, rfl, rfl⟩
  | move _ hm ih => exact hm.counted ih

/-! ## The end of a cycle -/

/-- What the log tells after the event that ends a cycle, at the same instant. -/
def sequel (s : Scheduler) : Event → List Event
  | .delivered id kind _ =>
    if kind.isMain then
      if s.lifecycle = .running then
        [.armed s.nextCycle .slowRefresh s.cadence.refreshInterval]
      else [.notRearmed id]
    else []
  | _ => []

theorem Move.sequel (hs : s.Sound) (hm : Move s s') :
    ∃ new : List Event, s'.bench.log = new.map (⟨s.bench.now, ·⟩) ++ s.bench.log ∧
      ∀ e ∈ new, e.endsCycle = true → new = s.sequel e ++ [e] := by
  have one {e : Event} (he : e.endsCycle = true → s.sequel e = []) :
      ∀ x ∈ [e], x.endsCycle = true → [e] = s.sequel x ++ [x] := by
    intro x hx hends
    obtain rfl := List.mem_singleton.mp hx
    rw [he hends, List.nil_append]
  have two {x e : Event} (hx : x.endsCycle = false) (he : s.sequel e = [x]) :
      ∀ y ∈ [x, e], y.endsCycle = true → [x, e] = s.sequel y ++ [y] := by
    intro y hy hends
    rcases List.mem_cons.mp hy with rfl | hy
    · rw [hx] at hends
      cases hends
    · obtain rfl := List.mem_singleton.mp hy
      rw [he]
      rfl
  cases hm.effect with
  | started | refreshed => exact ⟨[_], rfl, one fun he => (by cases he)⟩
  | noted he =>
    refine ⟨[_], rfl, one fun hends => ?_⟩
    rw [(Event.endsCycle_of_cycle? he).2] at hends
    cases hends
  | shutDown | unchanged | released | waited => exact ⟨[], rfl, fun _ hx => (by cases hx)⟩
  | @polled _ l r c hl _ ht =>
    have hsound := hs.each c (by simp [hl])
    cases ht with
    | cancelled | exhausted => exact ⟨[_], rfl, one fun _ => rfl⟩
    | unsent | sent => exact ⟨[_], rfl, one fun he => (by cases he)⟩
    | @retried _ _ _ o _ _ ho =>
      refine ⟨[_], rfl, one fun hends => ?_⟩
      rw [(c.attempt.endsCycle_verdict o).2, ho] at hends
      cases hends
    | delivered _ _ hk =>
      refine ⟨[_], rfl, one fun _ => ?_⟩
      simp [Scheduler.sequel, Attempt.verdict, hsound.isMain_of_nothing hk]
    | rearmed _ _ hk hrun =>
      refine ⟨[_, _], rfl, two rfl ?_⟩
      have hmain := hsound.isMain_of_armSlowRefresh hk
      simp only [Scheduler.sequel, Attempt.verdict, hmain, hrun, if_true]
      rfl
    | notRearmed _ _ hk hrun =>
      refine ⟨[_, _], rfl, two rfl ?_⟩
      have hmain := hsound.isMain_of_armSlowRefresh hk
      simp only [Scheduler.sequel, Attempt.verdict, hmain, hrun, if_true, if_false]

/-! ## All histories -/

/-- What a log can say. -/
structure Histories (s : Scheduler) : Prop where
  /-- Cycles are numbered 1, 2, 3 and so on as they are armed. -/
  numbered : s.armedCycles = List.range' 1 (s.nextCycle - 1)
  /-- The log tells of no other cycles. -/
  others : ∀ id, id ∉ s.armedCycles → s.history id = []
  /-- Of a cycle it tells the story so far, the beginning of a whole one; the story is whole once
  the cycle is gone. Ticks come at least a millisecond apart. -/
  stories : ∀ id ∈ s.armedCycles, ∃ kind n whole full,
    Story id kind (Cycle.ofKind s.cadence kind).policy n whole ((s.history id).map (·.event)) ∧
      Story id kind (Cycle.ofKind s.cadence kind).policy n true full ∧
      (s.history id).map (·.event) <+: full ∧
      (whole = false ↔ ∃ c ∈ s.live, c.attempt.cycle = id) ∧ n ≤ s.bench.now + 1
  /-- It tells of every send, when it was made, and of no other. -/
  sends : s.bench.transport.sends.map (·.time) = s.sendingTimes.reverse
  /-- Every cycle armed is live or has ended. -/
  active : s.live.length + s.endedCount = s.armedCycles.length
  /-- The end of a cycle arms the next slow refresh if it is a delivery of the main chain while
  running; otherwise it arms nothing. -/
  endings : ∀ s', Move s s' →
    ∃ new : List Event, s'.bench.log = new.map (⟨s.bench.now, ·⟩) ++ s.bench.log ∧
      ∀ e ∈ new, e.endsCycle = true → new = s.sequel e ++ [e]

theorem mem_armedCycles {id : Nat} :
    id ∈ s.armedCycles ↔ ∃ time kind delay, ⟨time, .armed id kind delay⟩ ∈ s.bench.log := by
  rw [armedCycles, List.mem_reverse, List.mem_filterMap]
  constructor
  · rintro ⟨⟨time, e⟩, he, harm⟩
    cases e with
    | armed c kind delay =>
      obtain rfl : c = id := by simpa [Event.arming?] using harm
      exact ⟨time, kind, delay, he⟩
    | _ => cases harm
  · rintro ⟨time, kind, delay, he⟩
    exact ⟨_, he, rfl⟩

end Scheduler

open Scheduler

/-- **Every history is a story.** Cycles are numbered as they are armed. Of each the log tells
failed ticks, numbered and within the tries, and then one ending; each send is told of once; the
live cycles are those armed and not ended; and only a delivery of the main chain while running
leads to another cycle, a slow refresh armed right then. -/
theorem histories_are_stories {s : Scheduler} (h : Reachable s) : s.Histories where
  numbered := h.counted.numbered
  others id hid := by
    rcases h.told id with ⟨hh, _⟩ | ⟨k, laps, stage, rfl, hr⟩
    · exact hh
    · exact absurd (mem_armedCycles.mpr ⟨_, _, _, mem_log_of_mem_history hr.arming_mem⟩) hid
  stories id hid := by
    obtain ⟨time, kind, delay, armed⟩ := mem_armedCycles.mp hid
    obtain ⟨_, laps, stage, hr⟩ := h.recorded armed
    obtain ⟨n, whole, hstory, hlive, hn⟩ := hr.story
    obtain ⟨full, hfull, hbegins⟩ := hstory.completes
    exact ⟨kind, n, whole, full, hstory, hfull, hbegins, hlive, hn⟩
  sends := h.send_times
  active := h.counted.active
  endings _ hm := hm.sequel h.sound

/-- A bring-up whose first tick times out, and the refresh that its second one leads to. -/
theorem slowStart_tells_stories :
    Simulation.slowStart.scheduler.armedCycles = [1, 2] ∧
      (Simulation.slowStart.scheduler.history 2).map (·.event) = [.armed 2 .slowRefresh 100] ∧
      Simulation.slowStart.scheduler.Histories :=
  ⟨by decide, by decide, histories_are_stories (Simulation.reachable_sampled _ _ _)⟩

end Heartbeat
