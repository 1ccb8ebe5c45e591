import Heartbeat.Proofs.Pace
import Mathlib.Algebra.Order.Floor.Div
import Mathlib.Data.List.NodupEquivFin

/-!
# Heartbeat.Proofs.Bursts

How many ticks of one cycle can begin in a short time. A tick that begins a little late does not
move the deadlines after it, so with a short period a cycle may catch up on several at once.

* `begun start period lasted` — when the ticks begin that last so long.
* `Apart period n a b`        — how far apart two ticks are that have `n` others between them.
* `Spread period times`       — any two of the times are that far apart; so few of them lie in a
  window (`Spread.countP_window_le`).
* `begun_spread`              — the ticks of a timetable are spread.
* `Recorded.beginnings_eq`    — a cycle on its course begins its ticks by its timetable.
-/

namespace Heartbeat

/-- When the ticks begin that last so long, the first one first. -/
def begun (start period : Nat) : List Nat → List Nat
  | [] => []
  | _ :: earlier => begun start period earlier ++ [(slot start period earlier).begins]

/-- Every 2 ms, the first one lasting 7 ms and the others no time: the second is 5 ms late, which is
not too late, so two deadlines more are met at the same time. -/
example : begun 0 2 [0, 0, 0, 7] = [0, 7, 7, 7] := by decide

/-- Two times are as far apart as ticks can be that have `n` others between them. The first may be
late within the tolerance; otherwise the next deadline is still ahead. -/
def Apart (period n a b : Nat) : Prop :=
  a + (n + 1) * period ≤ b + lateTolerance ∨ a + n * period < b

namespace Apart

variable {period n m a b b' : Nat}

theorem mono (h : Apart period n a b) (hb : b ≤ b') : Apart period n a b' := by
  unfold Apart at h ⊢
  omega

/-- Fewer ticks between them ask for less. -/
theorem of_le (h : Apart period n a b) (hm : m ≤ n) : Apart period m a b := by
  have hmul := Nat.mul_le_mul_right period hm
  have hmul' := Nat.mul_le_mul_right period (Nat.succ_le_succ hm)
  rcases h with h | h
  · exact .inl (Nat.le_trans (Nat.add_le_add_left hmul' a) h)
  · exact .inr (Nat.lt_of_le_of_lt (Nat.add_le_add_left hmul a) h)

theorem succ (h : Apart period n a b) (hb : b + period ≤ b') : Apart period (n + 1) a b' := by
  rw [Apart, Nat.add_one_mul] at h ⊢
  rw [Nat.add_one_mul]
  omega

theorem lt (h : Apart period n a b) (hp : lateTolerance < period) : a < b := by
  rw [Apart, Nat.add_one_mul] at h
  omega

/-- Two times within a window have few ticks between them. -/
theorem le_of_window {first width : Nat} (h : Apart period n a b) (pos : 0 < period)
    (ha : first ≤ a) (hb : b ≤ first + width) :
    n + 1 ≤ max ((width + lateTolerance) / period) (width ⌈/⌉ period) := by
  rcases h with h | h
  · refine Nat.le_trans ?_ (Nat.le_max_left _ _)
    rw [Nat.le_div_iff_mul_le pos]
    omega
  · refine Nat.le_trans ?_ (Nat.le_max_right _ _)
    rw [Nat.ceilDiv_eq_add_pred_div, Nat.le_div_iff_mul_le pos, Nat.add_one_mul]
    omega

end Apart

section Timetable

variable {start period i n a b : Nat} {lasted : List Nat}

@[simp] theorem length_begun (start period : Nat) (lasted : List Nat) :
    (begun start period lasted).length = lasted.length := by
  induction lasted with
  | nil => rfl
  | cons w ws ih => rw [begun, List.length_append, ih]; rfl

theorem deadline_add_le (start period w : Nat) (ws : List Nat) :
    (slot start period ws).deadline + period ≤ (slot start period (w :: ws)).deadline := by
  obtain ⟨n, hn⟩ := deadline_succ start period w ws
  rw [hn, Nat.add_one_mul]
  omega

/-- A tick within the tolerance leaves the next deadline where it was; one that is later skips to a
deadline ahead. -/
theorem begins_apart_deadline (start w : Nat) (ws : List Nat) (pos : 0 < period) :
    Apart period 0 (slot start period ws).begins (slot start period (w :: ws)).deadline := by
  have hle := deadline_le_begins start period ws
  have hmod := Nat.mod_lt ((slot start period ws).begins - (slot start period ws).deadline) pos
  rw [deadline_cons]
  unfold Apart nextDeadline
  split <;> omega

/-- By induction on the ticks: each one moves the deadline on by a period at least. -/
theorem begun_apart_deadline (pos : 0 < period) (hn : i + n + 1 = lasted.length)
    (ha : (begun start period lasted)[i]? = some a) :
    Apart period n a (slot start period lasted).deadline := by
  induction lasted generalizing n with
  | nil => cases ha
  | cons w ws ih =>
    rw [List.length_cons] at hn
    rcases Paced.getElem?_snoc ha with ha | ⟨hi, rfl⟩
    · have hi := (List.getElem?_eq_some_iff.mp ha).1
      rw [length_begun] at hi
      obtain ⟨m, rfl⟩ : ∃ m, n = m + 1 := ⟨n - 1, by omega⟩
      exact (ih (by omega) ha).succ (deadline_add_le start period w ws)
    · rw [length_begun] at hi
      obtain rfl : n = 0 := by omega
      exact begins_apart_deadline start w ws pos

/-- Any two of the times are as far apart as ticks can be that have those between them. -/
def Spread (period : Nat) (times : List Nat) : Prop :=
  ∀ i n a b, times[i]? = some a → times[i + n + 1]? = some b → Apart period n a b

theorem begun_spread (start : Nat) (lasted : List Nat) (pos : 0 < period) :
    Spread period (begun start period lasted) := by
  intro i n a b ha hb
  induction lasted with
  | nil => cases ha
  | cons w ws ih =>
    rcases Paced.getElem?_snoc hb with hb | ⟨hlast, rfl⟩
    · have hlt := (List.getElem?_eq_some_iff.mp hb).1
      rw [begun, List.getElem?_append_left (by omega)] at ha
      exact ih ha hb
    · rw [begun, List.getElem?_append_left (by omega)] at ha
      rw [length_begun] at hlast
      exact (begun_apart_deadline pos hlast ha).mono (deadline_le_begins _ _ _)

end Timetable

namespace Spread

variable {period : Nat} {times : List Nat}

/-- Few of the times lie in a window. -/
theorem countP_window_le (h : Spread period times) (pos : 0 < period) (first width : Nat) :
    times.countP (fun b => first ≤ b ∧ b ≤ first + width) ≤
      max ((width + lateTolerance) / period) (width ⌈/⌉ period) + 1 := by
  rw [List.countP_eq_length_filter]
  generalize hw : times.filter (fun b => decide (first ≤ b ∧ b ≤ first + width)) = within
  have hsub : within.Sublist times := hw ▸ List.filter_sublist
  have hin : ∀ b ∈ within, first ≤ b ∧ b ≤ first + width := fun b hb => by
    rw [← hw, List.mem_filter] at hb
    exact of_decide_eq_true hb.2
  -- the first and the last time in the window have all the others between them
  match hlen : within.length with
  | 0 | 1 => omega
  | n + 2 =>
    obtain ⟨place, hplace⟩ := List.sublist_iff_exists_orderEmbedding_getElem?_eq.mp hsub
    have ha := List.getElem?_eq_getElem (l := within) (i := 0) (by omega)
    have hb := List.getElem?_eq_getElem (l := within) (i := n + 1) (by omega)
    have hgap : n + 1 + place 0 ≤ place (n + 1) :=
      place.strictMono.add_le_nat (n + 1) 0
    obtain ⟨m, hm⟩ : ∃ m, place (n + 1) = place 0 + m + 1 := ⟨place (n + 1) - place 0 - 1, by omega⟩
    have hapart := h _ m _ _ ((hplace 0).symm.trans ha) (hm ▸ (hplace (n + 1)).symm.trans hb)
    have hbound := (hapart.of_le (m := n) (by omega)).le_of_window pos
      (hin _ (List.getElem_mem _)).1 (hin _ (List.getElem_mem _)).2
    omega

/-- Few of them are the same. -/
theorem count_le (h : Spread period times) (pos : 0 < period) (instant : Nat) :
    times.count instant ≤ lateTolerance / period + 1 := by
  have hwindow := h.countP_window_le pos instant 0
  have hsame : times.count instant =
      times.countP (fun b => instant ≤ b ∧ b ≤ instant + 0) :=
    List.countP_congr fun b _ => by simp [Nat.eq_iff_le_and_ge, and_comm]
  simpa [hsame] using hwindow

/-- With a period beyond the tolerance none of them are. -/
theorem pairwise_lt (h : Spread period times) (hp : lateTolerance < period) :
    times.Pairwise (· < ·) := by
  rw [List.pairwise_iff_getElem]
  intro i j hi hj hij
  obtain ⟨n, rfl⟩ : ∃ n, j = i + n + 1 := ⟨j - i - 1, by omega⟩
  exact (h i n _ _ (List.getElem?_eq_getElem hi) (List.getElem?_eq_getElem hj)).lt hp

end Spread

/-! ## The ticks of a course -/

namespace Scheduler

variable {s : Scheduler} {k : Course} {laps : List Lap} {stage : Stage}

/-- The ticks of a course begin by its timetable. -/
theorem Ran.beginnings_eq (h : s.Ran k laps) :
    Entry.beginnings (k.ticked s.cadence laps) =
      begun (k.armed + (k.policy s.cadence).initialDelay) (k.policy s.cadence).period
        (laps.map Lap.lasted) := by
  induction h with
  | armed => rfl
  | lap _ _ _ hx _ ih => rw [Course.ticked, Entry.beginnings_append, ih, hx.times.1]; rfl

theorem Recorded.beginnings_eq (h : s.Recorded k laps stage) :
    Entry.beginnings (s.history k.id) =
      begun (k.armed + (k.policy s.cadence).initialDelay) (k.policy s.cadence).period
        (laps.map Lap.lasted) ++ Entry.beginnings (k.closing s.cadence laps stage) := by
  rw [h.history, Course.entries, Entry.beginnings_append, h.ran.beginnings_eq]

/-- So do the one under way and the one that finds the tries used up. -/
theorem Recorded.spread (h : s.Recorded k laps stage) :
    Spread s.cadence.sendInterval (Entry.beginnings (s.history k.id)) := by
  have spread : ∀ lasted, Spread s.cadence.sendInterval
      (begun (k.armed + (k.policy s.cadence).initialDelay) (k.policy s.cadence).period lasted) := by
    rw [show (k.policy s.cadence).period = s.cadence.sendInterval from period_ofKind _ _]
    exact fun lasted => begun_spread _ lasted s.cadence.sendInterval_pos
  have hbegun := spread (laps.map Lap.lasted)
  rw [h.beginnings_eq]
  cases stage with
  | idle | cancelled => exact (List.append_nil _).symm ▸ hbegun
  | delivered late => cases late <;> exact (List.append_nil _).symm ▸ hbegun
  | waiting | exhausted => exact spread (0 :: laps.map Lap.lasted)

end Scheduler

open Scheduler

/-- **Ticks come in short bursts only.** In any window of time a cycle begins no more ticks than
send intervals fit into it, counting what the tolerance lets it catch up on, and one more. So few
begin at one instant; and with an interval beyond the tolerance each begins later than the one
before it. -/
theorem bursts_are_bounded {s : Scheduler} (h : Reachable s) {time id delay : Nat}
    {kind : CycleKind} (armed : ⟨time, .armed id kind delay⟩ ∈ s.bench.log) :
    (∀ first width, (Entry.beginnings (s.history id)).countP
        (fun b => first ≤ b ∧ b ≤ first + width) ≤
      max ((width + 5) / s.cadence.sendInterval) (width ⌈/⌉ s.cadence.sendInterval) + 1) ∧
    (∀ instant, (Entry.beginnings (s.history id)).count instant ≤
      5 / s.cadence.sendInterval + 1) ∧
    (5 < s.cadence.sendInterval → (Entry.beginnings (s.history id)).Pairwise (· < ·)) := by
  obtain ⟨rfl, laps, stage, hr⟩ := h.recorded armed
  have pos := s.cadence.sendInterval_pos
  exact ⟨hr.spread.countP_window_le pos, hr.spread.count_le pos, hr.spread.pairwise_lt⟩

namespace Simulation

/-- A tick every 2 ms. -/
def nimble : Cadence := { brisk with sendInterval := 2, sendInterval_pos := Nat.two_pos }

/-- At that cadence, a first request that fails after 7 ms and others that fail at once. -/
def catchingUp : Simulation :=
  let m := sample [.after 7 (.error ["timed out"])] .refused
  ({ m with scheduler := { m.scheduler with cadence := nimble } }.run [.start, .sleep 7]).2

/-- The tick that is late, and two more, begin as the first one fails. -/
theorem catchingUp_is_bounded :
    Entry.beginnings (catchingUp.scheduler.history 1) = [0, 7, 7, 7] ∧
      (Entry.beginnings (catchingUp.scheduler.history 1)).count 7 ≤ 5 / 2 + 1 := by
  have accepted : Settings.cadence ⟨2, 100, 2, 50⟩ = .ok nimble := rfl
  have reachable : Reachable catchingUp.scheduler :=
    reachable_run (.fresh (by decide) accepted rfl rfl) _
  have armed : ⟨0, .armed 1 .fastBringup 0⟩ ∈ catchingUp.scheduler.bench.log := by decide
  exact ⟨by decide, (bursts_are_bounded reachable armed).2.1 7⟩

end Simulation
end Heartbeat
