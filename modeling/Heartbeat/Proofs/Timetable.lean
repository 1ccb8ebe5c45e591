import Heartbeat.Cycle

/-!
# Heartbeat.Proofs.Timetable

The timetable of a cycle, by itself: when a tick is due and when it begins, given how long each of
the ticks before it lasted.

* `slot start period lasted` — the place of the tick that follows; the last duration comes first.
* `add_mul_le_deadline`      — deadlines are a period apart, at least.
* `deadline_mod`             — they never leave the grid of the first one.
* `ends_le_begins`           — no tick begins before the one before it has ended.
-/

namespace Heartbeat

structure Slot where
  deadline : Nat
  begins : Nat
  deriving DecidableEq, Repr

/-- The slot after one in which a tick lasted that long. A tick that began more than 5 ms late does
not make up for the deadlines it missed. -/
def Slot.next (period lasted : Nat) (x : Slot) : Slot :=
  let late := x.begins - x.deadline
  let deadline :=
    if late ≤ 5 then x.deadline + period else x.begins + period - late % period
  ⟨deadline, max deadline (x.begins + lasted)⟩

def slot (start period : Nat) : List Nat → Slot
  | [] => ⟨start, start⟩
  | lasted :: earlier => (slot start period earlier).next period lasted

/-- Every 10 ms and lasting 100 ms each: the second tick begins 90 ms late, so the third is due at
the first deadline after that, and begins when the second ends. -/
example : [slot 0 10 [], slot 0 10 [100], slot 0 10 [100, 100]] =
    [⟨0, 0⟩, ⟨10, 100⟩, ⟨110, 200⟩] := by decide

section Laws

variable (start period : Nat)

theorem deadline_le_begins (lasted : List Nat) :
    (slot start period lasted).deadline ≤ (slot start period lasted).begins := by
  cases lasted with
  | nil => exact Nat.le_refl _
  | cons => exact Nat.le_max_left _ _

theorem ends_le_begins (lasted : Nat) (earlier : List Nat) :
    (slot start period earlier).begins + lasted ≤
      (slot start period (lasted :: earlier)).begins :=
  Nat.le_max_right _ _

/-- The scheduler goes from deadline to deadline in the same way. -/
theorem deadline_cons (lasted : Nat) (earlier : List Nat) :
    (slot start period (lasted :: earlier)).deadline =
      nextDeadline (slot start period earlier).deadline
        ((slot start period earlier).begins - (slot start period earlier).deadline) period := by
  have hle := deadline_le_begins start period earlier
  have hlate : (slot start period earlier).deadline +
      ((slot start period earlier).begins - (slot start period earlier).deadline) =
      (slot start period earlier).begins := by omega
  simp only [slot, Slot.next, nextDeadline, lateTolerance, hlate]

/-- The next deadline is some whole periods later, and one at least. -/
theorem deadline_succ (lasted : Nat) (earlier : List Nat) :
    ∃ n, (slot start period (lasted :: earlier)).deadline =
      (slot start period earlier).deadline + (n + 1) * period := by
  rw [deadline_cons]
  generalize (slot start period earlier).deadline = deadline
  generalize (slot start period earlier).begins - deadline = late
  unfold nextDeadline
  split
  · exact ⟨0, by rw [Nat.zero_add, Nat.one_mul]⟩
  · -- the deadlines missed are as many as there are periods in the delay
    have hdiv := Nat.div_add_mod late period
    refine ⟨late / period, ?_⟩
    rw [Nat.add_mul, Nat.one_mul, Nat.mul_comm]
    omega

theorem add_mul_le_deadline (lasted : List Nat) :
    start + lasted.length * period ≤ (slot start period lasted).deadline := by
  induction lasted with
  | nil => simp [slot]
  | cons w ws ih =>
    obtain ⟨n, hn⟩ := deadline_succ start period w ws
    have hp : period ≤ (n + 1) * period := Nat.le_mul_of_pos_left period (Nat.succ_pos n)
    rw [hn, List.length_cons, Nat.succ_mul]
    omega

theorem deadline_mod (lasted : List Nat) :
    (slot start period lasted).deadline % period = start % period := by
  induction lasted with
  | nil => rfl
  | cons w ws ih =>
    obtain ⟨n, hn⟩ := deadline_succ start period w ws
    rw [hn, Nat.add_mul_mod_self_right, ih]

end Laws
end Heartbeat
