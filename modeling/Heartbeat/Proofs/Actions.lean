import Heartbeat.Proofs.Moves

/-!
# Heartbeat.Proofs.Actions

Moves by name, so that a run is a list that can be carried out.

* `Action`    — a move, with the choices made that it leaves open.
* `CanActAll` — whether actions can come one after another; it is decidable.
* `moves_iff` — what moves come to is what lists of actions come to.
-/

namespace Heartbeat

/-- What can be done to a scheduler, or happen to it. -/
inductive Action where
  | start
  | refresh
  | stop
  | drop
  | release (r : Reply)
  /-- The public face tells of a stop. -/
  | announce
  | wait (time : Nat)
  | poll (i : Nat)

namespace Scheduler

variable {s s' : Scheduler} {a : Action} {actions : List Action}

def act (s : Scheduler) : Action → Scheduler
  | .start => s.start.2
  | .refresh => s.refresh.2
  | .stop => s.stop.2
  | .drop => s.drop
  | .release r => s.release r
  | .announce => s.note .reporterStopped
  | .wait time => s.wait time
  | .poll i => s.poll i

/-- Whether an action can come next: time passes no cycle that is ready, and only such a one is
polled. -/
def CanAct (s : Scheduler) : Action → Prop
  | .announce => s.lifecycle = .stopped
  | .wait time => ∀ c ∈ s.live, time ≤ s.wakeTime c
  | .poll i => ∃ h : i < s.live.length, s.wakeTime s.live[i] ≤ s.bench.now
  | .start | .refresh | .stop | .drop | .release _ => True

instance (s : Scheduler) (a : Action) : Decidable (s.CanAct a) :=
  match a with
  | .announce => inferInstanceAs (Decidable (s.lifecycle = .stopped))
  | .wait time => inferInstanceAs (Decidable (∀ c ∈ s.live, time ≤ s.wakeTime c))
  | .poll i =>
    inferInstanceAs (Decidable (∃ h : i < s.live.length, s.wakeTime s.live[i] ≤ s.bench.now))
  | .start | .refresh | .stop | .drop | .release _ => .isTrue trivial

def actAll (s : Scheduler) (actions : List Action) : Scheduler := actions.foldl act s

/-- Whether actions can come one after another. -/
def CanActAll (s : Scheduler) : List Action → Prop
  | [] => True
  | a :: actions => s.CanAct a ∧ (s.act a).CanActAll actions

instance decidableCanActAll (s : Scheduler) :
    (actions : List Action) → Decidable (s.CanActAll actions)
  | [] => .isTrue trivial
  | a :: actions =>
    have := decidableCanActAll (s.act a) actions
    inferInstanceAs (Decidable (s.CanAct a ∧ (s.act a).CanActAll actions))

theorem move_act (h : s.CanAct a) : Move s (s.act a) := by
  cases a with
  | start => exact .start
  | refresh => exact .refresh
  | stop => exact .stop
  | drop => exact .drop
  | release r => exact .release r
  | announce => exact .announce h
  | wait time => exact .wait time h
  | poll i =>
    obtain ⟨hi, hw⟩ := h
    have hl : s.live = s.live.take i ++ s.live[i] :: s.live.drop (i + 1) := by
      rw [List.getElem_cons_drop, List.take_append_drop]
    have hlen : (s.live.take i).length = i := List.length_take_of_le (Nat.le_of_lt hi)
    have hm : Move s (s.poll (s.live.take i).length) := .poll hl hw
    rwa [hlen] at hm

theorem Move.exists_action (h : Move s s') : ∃ a, s.CanAct a ∧ s.act a = s' := by
  cases h with
  | start => exact ⟨.start, trivial, rfl⟩
  | refresh => exact ⟨.refresh, trivial, rfl⟩
  | stop => exact ⟨.stop, trivial, rfl⟩
  | drop => exact ⟨.drop, trivial, rfl⟩
  | release r => exact ⟨.release r, trivial, rfl⟩
  | announce h => exact ⟨.announce, h, rfl⟩
  | wait time h => exact ⟨.wait time, h, rfl⟩
  | @poll l r c hl hw =>
    have hi : l.length < s.live.length := by simp [hl]
    have hc : s.live[l.length] = c := by simp [hl]
    exact ⟨.poll l.length, ⟨hi, hc ▸ hw⟩, rfl⟩

theorem canActAll_concat :
    s.CanActAll (actions ++ [a]) ↔ s.CanActAll actions ∧ (s.actAll actions).CanAct a := by
  induction actions generalizing s with
  | nil => simp [CanActAll, actAll]
  | cons b actions ih =>
    rw [List.cons_append, CanActAll, CanActAll, ih, and_assoc]
    rfl

theorem actAll_concat (s : Scheduler) (actions : List Action) (a : Action) :
    s.actAll (actions ++ [a]) = (s.actAll actions).act a :=
  List.foldl_append

/-- What moves come to is what lists of actions come to. -/
theorem moves_iff : s.Moves s' ↔ ∃ actions, s.CanActAll actions ∧ s.actAll actions = s' := by
  constructor
  · intro h
    induction h with
    | refl => exact ⟨[], trivial, rfl⟩
    | tail _ hm ih =>
      obtain ⟨actions, hcan, rfl⟩ := ih
      obtain ⟨a, ha, rfl⟩ := hm.exists_action
      exact ⟨actions ++ [a], canActAll_concat.mpr ⟨hcan, ha⟩, actAll_concat _ _ _⟩
  · rintro ⟨actions, hcan, rfl⟩
    induction actions generalizing s with
    | nil => exact .refl
    | cons a actions ih => exact (Moves.single (move_act hcan.1)).trans (ih hcan.2)

end Scheduler

end Heartbeat
