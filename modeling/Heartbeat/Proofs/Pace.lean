import Heartbeat.Proofs.Chronicle

/-!
# Heartbeat.Proofs.Pace

How fast the ticks of one cycle follow one another.

* `Entry.beginnings`, `Entry.endings` — when the ticks began and ended that a log tells of.
* `Paced`                             — the n-th tick is not early, and one is under way at a time.
* `Recorded.paced`                    — a cycle on its course keeps that pace.
* `Recorded.deadline_mod`             — and it keeps to its grid of deadlines.
-/

namespace Heartbeat

/-- Whether an event is the first that is told of a tick. -/
def Event.beginsTick : Event → Bool
  | .exhausted .. => true
  | e => e.isCall

/-- Whether an event is the last that is told of a tick. -/
def Event.endsTick : Event → Bool
  | .delivered .. | .failed .. | .timedOut .. | .exhausted .. => true
  | _ => false

/-- The deadline that a cycle waits for, or has met. -/
def Phase.deadline : Phase → Nat
  | idle deadline | waiting deadline _ _ => deadline

namespace Entry

def beginnings (log : List Entry) : List Nat := (log.filter (·.event.beginsTick)).map (·.time)

def endings (log : List Entry) : List Nat := (log.filter (·.event.endsTick)).map (·.time)

@[simp] theorem beginnings_append (xs ys : List Entry) :
    beginnings (xs ++ ys) = beginnings xs ++ beginnings ys := by
  simp [beginnings]

@[simp] theorem endings_append (xs ys : List Entry) :
    endings (xs ++ ys) = endings xs ++ endings ys := by
  simp [endings]

end Entry

/-- The times at which ticks began and ended, the first one first. -/
structure Paced (start period : Nat) (begun ended : List Nat) : Prop where
  /-- No tick is early. -/
  rate : ∀ {n b : Nat}, begun[n]? = some b → start + n * period ≤ b
  /-- At most one tick is under way. -/
  single : ended.length ≤ begun.length ∧ begun.length ≤ ended.length + 1
  lasts : ∀ {n b e : Nat}, begun[n]? = some b → ended[n]? = some e → b ≤ e
  apart : ∀ {n b e : Nat}, ended[n]? = some e → begun[n + 1]? = some b → e ≤ b

namespace Paced

variable {start period b e : Nat} {begun ended : List Nat}

theorem nil : Paced start period [] [] where
  rate h := by cases h
  single := ⟨Nat.le_refl _, Nat.zero_le _⟩
  lasts h := by cases h
  apart h := by cases h

theorem getElem?_snoc {xs : List Nat} {x y n : Nat} (h : (xs ++ [y])[n]? = some x) :
    xs[n]? = some x ∨ n = xs.length ∧ x = y := by
  rw [List.getElem?_append] at h
  split at h
  · exact .inl h
  · rw [List.getElem?_singleton] at h
    split at h
    · cases h
      exact .inr ⟨by omega, rfl⟩
    · cases h

/-- A tick begins, after all others have ended. -/
theorem begin (h : Paced start period begun ended) (hl : begun.length = ended.length)
    (hb : start + begun.length * period ≤ b) (he : ∀ e ∈ ended, e ≤ b) :
    Paced start period (begun ++ [b]) ended where
  rate hn := by
    rcases getElem?_snoc hn with hn | ⟨rfl, rfl⟩
    · exact h.rate hn
    · exact hb
  single := by
    rw [List.length_append, List.length_singleton]
    omega
  lasts hn hn' := by
    rcases getElem?_snoc hn with hn | ⟨rfl, rfl⟩
    · exact h.lasts hn hn'
    · rw [hl, List.getElem?_eq_none (Nat.le_refl _)] at hn'
      cases hn'
  apart hn hn' := by
    rcases getElem?_snoc hn' with hn' | ⟨_, rfl⟩
    · exact h.apart hn hn'
    · exact he _ (List.mem_of_getElem? hn)

theorem finish (h : Paced start period begun ended) (hl : begun.length = ended.length + 1)
    (hb : ∀ b ∈ begun, b ≤ e) : Paced start period begun (ended ++ [e]) where
  rate := h.rate
  single := by
    rw [List.length_append, List.length_singleton]
    omega
  lasts hn hn' := by
    rcases getElem?_snoc hn' with hn' | ⟨_, rfl⟩
    · exact h.lasts hn hn'
    · exact hb _ (List.mem_of_getElem? hn)
  apart hn hn' := by
    rcases getElem?_snoc hn with hn | ⟨rfl, rfl⟩
    · exact h.apart hn hn'
    · rw [← hl, List.getElem?_eq_none (Nat.le_refl _)] at hn'
      cases hn'

end Paced

/-! ## The pace of a course -/

section Pace

variable {s : Scheduler} {k : Course} {laps : List Lap} {stage : Stage}

theorem Attempt.beginsTick_verdict (a : Attempt) {o : Outcome}
    (h : ∀ message, o ≠ .fail .descriptor message) : (a.verdict o).beginsTick = false := by
  have hc := a.isCall_verdict h
  cases o <;> exact hc

theorem Attempt.endsTick_verdict (a : Attempt) (o : Outcome) :
    (a.verdict o).endsTick = true := by
  cases o <;> rfl

theorem Lap.Happened.times {b : Bench} {a : Attempt} {begins : Nat} {x : Lap}
    (h : x.Happened b a begins) :
    Entry.beginnings (x.entries a begins) = [begins] ∧
      Entry.endings (x.entries a begins) = [begins + x.lasted] := by
  cases h with
  | unsent =>
    simp [Lap.entries, Lap.lasted, Entry.beginnings, Entry.endings, Attempt.verdict, Outcome.fail,
      Event.beginsTick, Event.endsTick, Event.isCall]
  | @sent d send lasted o older _ hw =>
    have hs : (Event.sending a.cycle d.agentId).beginsTick = true ∧
        (Event.sending a.cycle d.agentId).endsTick = false := ⟨rfl, rfl⟩
    have hv : (a.verdict o).beginsTick = false ∧ (a.verdict o).endsTick = true :=
      ⟨a.beginsTick_verdict hw.ne_descriptor, a.endsTick_verdict o⟩
    simp [Lap.entries, Lap.lasted, Entry.beginnings, Entry.endings, hs, hv]

theorem Course.add_mul_le_begins (k : Course) (c : Cadence) (laps : List Lap) :
    k.armed + (k.policy c).initialDelay + laps.length * (k.policy c).period ≤
      (k.slot c laps).begins := by
  have h := add_mul_le_deadline (k.armed + (k.policy c).initialDelay) (k.policy c).period
    (laps.map Lap.lasted)
  rw [List.length_map] at h
  exact Nat.le_trans h (k.deadline_le_begins c laps)

namespace Scheduler

theorem Ran.paced (h : s.Ran k laps) :
    Paced (k.armed + (k.policy s.cadence).initialDelay) (k.policy s.cadence).period
        (Entry.beginnings (k.ticked s.cadence laps)) (Entry.endings (k.ticked s.cadence laps)) ∧
      ((Entry.beginnings (k.ticked s.cadence laps)).length = laps.length ∧
        (Entry.endings (k.ticked s.cadence laps)).length = laps.length) ∧
      (∀ b ∈ Entry.beginnings (k.ticked s.cadence laps), b ≤ k.ended s.cadence laps) ∧
      ∀ e ∈ Entry.endings (k.ticked s.cadence laps), e ≤ k.ended s.cadence laps := by
  induction h with
  | armed => exact ⟨.nil, ⟨rfl, rfl⟩, fun _ hb => (by cases hb), fun _ he => (by cases he)⟩
  | @lap x earlier _ _ _ hx _ ih =>
    obtain ⟨hp, ⟨hlb, hle⟩, hb, he⟩ := ih
    obtain ⟨hxb, hxe⟩ := hx.times
    have hbegins := k.ended_le_begins s.cadence earlier
    have hends : (k.slot s.cadence earlier).begins ≤ k.ended s.cadence (x :: earlier) :=
      Nat.le_add_right _ _
    have hrate := k.add_mul_le_begins s.cadence earlier
    rw [Course.ticked, Entry.beginnings_append, Entry.endings_append, hxb, hxe]
    have hbegun : ∀ b ∈ Entry.beginnings (k.ticked s.cadence earlier) ++
        [(k.slot s.cadence earlier).begins], b ≤ k.ended s.cadence (x :: earlier) := by
      intro b hm
      rcases List.mem_append.mp hm with hm | hm
      · exact Nat.le_trans (hb b hm) (Nat.le_trans hbegins hends)
      · exact List.mem_singleton.mp hm ▸ hends
    refine ⟨(hp.begin (hlb.trans hle.symm) (hlb ▸ hrate) fun e hm =>
      Nat.le_trans (he e hm) hbegins).finish ?_ hbegun, ⟨?_, ?_⟩, hbegun, fun e hm => ?_⟩
    · rw [List.length_append, hlb, hle]
      rfl
    · rw [List.length_append, hlb]
      rfl
    · rw [List.length_append, hle]
      rfl
    · rcases List.mem_append.mp hm with hm | hm
      · exact Nat.le_trans (he e hm) (Nat.le_trans hbegins hends)
      · exact Nat.le_of_eq (List.mem_singleton.mp hm)

theorem Recorded.paced (h : s.Recorded k laps stage) :
    Paced (k.armed + (k.policy s.cadence).initialDelay) (k.policy s.cadence).period
      (Entry.beginnings (s.history k.id)) (Entry.endings (s.history k.id)) := by
  obtain ⟨hp, ⟨hlb, hle⟩, hb, he⟩ := h.ran.paced
  have hbegins := k.ended_le_begins s.cadence laps
  have hbegun := hp.begin (hlb.trans hle.symm) (hlb ▸ k.add_mul_le_begins s.cadence laps)
    fun e hm => Nat.le_trans (he e hm) hbegins
  rw [h.history, Course.entries, Entry.beginnings_append, Entry.endings_append]
  -- what closes a cycle is no tick, except one under way and one that finds the tries used up
  have silent : ∀ {l : List Entry}, Entry.beginnings l = [] → Entry.endings l = [] →
      Paced (k.armed + (k.policy s.cadence).initialDelay) (k.policy s.cadence).period
        (Entry.beginnings (k.ticked s.cadence laps) ++ Entry.beginnings l)
        (Entry.endings (k.ticked s.cadence laps) ++ Entry.endings l) := by
    intro l hb he
    rw [hb, he, List.append_nil, List.append_nil]
    exact hp
  cases h.stands with
  | idle | delivered | rearmed | notRearmed | cancelled => exact silent rfl rfl
  | @waiting d send _ =>
    have hnone : Entry.endings (k.closing s.cadence laps (.waiting d send)) = [] := rfl
    rw [hnone, List.append_nil]
    exact hbegun
  | exhausted =>
    refine hbegun.finish ?_ fun b hm => ?_
    · rw [List.length_append, hlb, hle]
      rfl
    · rcases List.mem_append.mp hm with hm | hm
      · exact Nat.le_trans (hb b hm) hbegins
      · exact Nat.le_of_eq (List.mem_singleton.mp hm)

theorem Recorded.deadline_mod (h : s.Recorded k laps stage) {c : LiveCycle} (hc : c ∈ s.live)
    (hid : c.attempt.cycle = k.id) :
    c.phase.deadline % (k.policy s.cadence).period =
      (k.armed + (k.policy s.cadence).initialDelay) % (k.policy s.cadence).period := by
  have hlive := (h.live c).mp ⟨hc, hid⟩
  have hmod := Heartbeat.deadline_mod (k.armed + (k.policy s.cadence).initialDelay)
    (k.policy s.cadence).period (laps.map Lap.lasted)
  cases stage with
  | idle | waiting => cases hlive; exact hmod
  | delivered | exhausted | cancelled => cases hlive

end Scheduler
end Pace

theorem period_ofKind (c : Cadence) (kind : CycleKind) :
    (Cycle.ofKind c kind).policy.period = c.sendInterval := by
  cases kind <;> rfl

open Scheduler

/-- **Ticks keep their pace.** The ticks of a cycle that was armed at a time and with a delay begin
no earlier than one send interval after another; none begins before the one before it has ended; and
every deadline that the cycle ever has is whole send intervals away from the first. -/
theorem ticks_keep_pace {s : Scheduler} (h : Reachable s) {time id delay : Nat}
    {kind : CycleKind} (armed : ⟨time, .armed id kind delay⟩ ∈ s.bench.log) :
    Paced (time + delay) s.cadence.sendInterval (Entry.beginnings (s.history id))
        (Entry.endings (s.history id)) ∧
      ∀ c ∈ s.live, c.attempt.cycle = id →
        c.phase.deadline % s.cadence.sendInterval = (time + delay) % s.cadence.sendInterval := by
  obtain ⟨rfl, laps, stage, hr⟩ := h.recorded armed
  rw [← period_ofKind s.cadence kind]
  exact ⟨hr.paced, fun c hc hid => hr.deadline_mod hc hid⟩

/-- The second tick of a cycle is due at 10 ms, and begins as the first one ends. -/
theorem slowStart_keeps_pace :
    Entry.beginnings (Simulation.slowStart.scheduler.history 1) = [0, 50] ∧
      Paced 0 10 (Entry.beginnings (Simulation.slowStart.scheduler.history 1))
        (Entry.endings (Simulation.slowStart.scheduler.history 1)) := by
  have armed : ⟨0, .armed 1 .fastBringup 0⟩ ∈ Simulation.slowStart.scheduler.bench.log := by
    decide
  exact ⟨by decide, (ticks_keep_pace (Simulation.reachable_sampled _ _ _) armed).1⟩

end Heartbeat
