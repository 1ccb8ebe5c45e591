import Heartbeat.Proofs.Wait

/-!
# Heartbeat.Proofs.Sound

What holds of every reachable scheduler and its live cycles.

* `LiveCycle.Sound` — the cycle has a number of its own and is run as its kind is; a tick under way
  has begun, and its end has not been missed.
* `Sound`           — so is every live cycle, they stand in the order of their numbers, and there
  is none before the start.
* `Reachable.sound` — every reachable scheduler is sound.
-/

namespace Heartbeat

structure LiveCycle.Sound (s : Scheduler) (c : LiveCycle) : Prop where
  named : c.attempt.cycle < s.nextCycle
  maxTries : c.attempt.maxTries = (Cycle.ofKind s.cadence c.attempt.kind).policy.maxTries
  timeout : c.attempt.timeout = s.cadence.responseTimeout
  period : c.period = s.cadence.sendInterval
  onSuccess : c.onSuccess = (Cycle.ofKind s.cadence c.attempt.kind).onSuccess
  begun : ∀ {deadline late send : Nat}, c.phase = .waiting deadline late send →
    deadline + late ≤ s.bench.now ∧ send < s.bench.transport.sends.length ∧
      s.bench.now ≤ (s.ending c deadline late send).1

namespace LiveCycle.Sound

variable {s : Scheduler} {c : LiveCycle}

theorem isMain_of_armSlowRefresh (h : c.Sound s) (hk : c.onSuccess = .armSlowRefresh) :
    c.attempt.kind.isMain = true := by
  have := h.onSuccess.symm.trans hk
  rw [onSuccess_ofKind] at this
  split at this
  · assumption
  · cases this

theorem isMain_of_nothing (h : c.Sound s) (hk : c.onSuccess = .nothing) :
    c.attempt.kind.isMain = false := by
  have := h.onSuccess.symm.trans hk
  rw [onSuccess_ofKind] at this
  split at this
  · cases this
  · exact Bool.eq_false_iff.mpr ‹_›

end LiveCycle.Sound

/-- What a live cycle relies on is kept as the bench grows at one time. -/
theorem LiveCycle.Sound.grow {s s' : Scheduler} {c : LiveCycle} (h : c.Sound s)
    (hb : s.bench.Grows s'.bench) (hn : s'.bench.now = s.bench.now)
    (hc : s'.cadence = s.cadence) (hi : s.nextCycle ≤ s'.nextCycle) : c.Sound s' where
  named := Nat.lt_of_lt_of_le h.named hi
  maxTries := hc ▸ h.maxTries
  timeout := hc ▸ h.timeout
  period := hc ▸ h.period
  onSuccess := hc ▸ h.onSuccess
  begun hp := by
    obtain ⟨h₁, h₂, h₃⟩ := h.begun hp
    exact ⟨hn ▸ h₁, Nat.lt_of_lt_of_le h₂ hb.sends_length_le, hb.le_awaits hn h₂ h₃⟩

namespace Scheduler

structure Sound (s : Scheduler) : Prop where
  created : s.lifecycle = .created → s.live = []
  ordered : (s.live.map (·.attempt.cycle)).Pairwise (· < ·)
  each : ∀ c ∈ s.live, c.Sound s

section Numbers

variable {s : Scheduler} {l r : List LiveCycle} {c : LiveCycle}

theorem Sound.cycle_ne (h : s.Sound) (hl : s.live = l ++ c :: r) :
    ∀ x ∈ l ++ r, x.attempt.cycle ≠ c.attempt.cycle := by
  have ho := h.ordered
  rw [hl, List.map_append, List.map_cons, List.pairwise_append, List.pairwise_cons] at ho
  obtain ⟨_, ⟨hr, _⟩, hlr⟩ := ho
  intro x hx
  rcases List.mem_append.mp hx with hx | hx
  · exact Nat.ne_of_lt (hlr _ (List.mem_map_of_mem hx) _ (List.mem_cons_self ..))
  · exact Nat.ne_of_gt (hr _ (List.mem_map_of_mem hx))

theorem Sound.eq_of_cycle_eq (h : s.Sound) (hl : s.live = l ++ c :: r) {x : LiveCycle}
    (hx : x ∈ s.live) (hid : x.attempt.cycle = c.attempt.cycle) : x = c := by
  rw [hl, List.mem_append, List.mem_cons] at hx
  rcases hx with hx | hx | hx
  · exact absurd hid (h.cycle_ne hl x (List.mem_append_left _ hx))
  · exact hx
  · exact absurd hid (h.cycle_ne hl x (List.mem_append_right _ hx))

theorem Sound.eq_of_mem (h : s.Sound) {x : LiveCycle} (hc : c ∈ s.live) (hx : x ∈ s.live)
    (hid : x.attempt.cycle = c.attempt.cycle) : x = c := by
  obtain ⟨l, r, hl⟩ := List.append_of_mem hc
  exact h.eq_of_cycle_eq hl hx hid

theorem Sound.ne_created (h : s.Sound) (hl : s.live = l ++ c :: r) :
    s.lifecycle ≠ .created := by
  intro hs
  have := h.created hs
  simp [hl] at this

end Numbers

theorem armed_sound (s : Scheduler) (k : CycleKind) :
    (s.armed (.ofKind s.cadence k)).Sound (s.arm (.ofKind s.cadence k)) := by
  cases k <;>
    exact ⟨Nat.lt_succ_self _, rfl, rfl, rfl, rfl, fun hp => by cases hp⟩

theorem Sound.arm {s : Scheduler} (h : s.Sound) (hc : s.lifecycle ≠ .created) (k : CycleKind) :
    (s.arm (.ofKind s.cadence k)).Sound where
  created hs := absurd hs hc
  ordered := by
    rw [arm_live, List.map_append, List.pairwise_append]
    refine ⟨h.ordered, List.pairwise_singleton _ _, ?_⟩
    intro x hx y hy
    obtain ⟨c, hm, rfl⟩ := List.mem_map.mp hx
    obtain rfl : y = s.nextCycle := by simpa [armed] using hy
    exact (h.each c hm).named
  each c hm := by
    rw [arm_live, List.mem_append] at hm
    rcases hm with hm | hm
    · exact (h.each c hm).grow (.note _ _) rfl rfl (Nat.le_succ _)
    · cases List.mem_singleton.mp hm
      exact armed_sound s k

/-- Replacing the live cycles by some of them, while something is noted. -/
theorem Sound.of_sublist {s s' : Scheduler} (h : s.Sound) (hb : s.bench.Grows s'.bench)
    (hn : s'.bench.now = s.bench.now) (hc : s'.cadence = s.cadence)
    (hi : s.nextCycle ≤ s'.nextCycle) (hl : s'.live.Sublist s.live)
    (hs : s'.lifecycle = .created → s.lifecycle = .created) : s'.Sound where
  created hs' := by
    have := h.created (hs hs')
    rw [this] at hl
    exact List.sublist_nil.mp hl
  ordered := h.ordered.sublist (hl.map _)
  each c hm := (h.each c (hl.subset hm)).grow hb hn hc hi

theorem Sound.of_replace {s s' : Scheduler} {l r : List LiveCycle} {c c' : LiveCycle}
    (h : s.Sound) (hl : s.live = l ++ c :: r) (hl' : s'.live = l ++ c' :: r)
    (hb : s.bench.Grows s'.bench) (hn : s'.bench.now = s.bench.now)
    (hc : s'.cadence = s.cadence) (hi : s.nextCycle ≤ s'.nextCycle)
    (hs : s'.lifecycle = s.lifecycle) (hid : c'.attempt.cycle = c.attempt.cycle)
    (hc' : c'.Sound s') : s'.Sound where
  created hs' := by
    have := h.created (hs ▸ hs')
    rw [hl] at this
    simp at this
  ordered := by
    have := h.ordered
    rw [hl] at this
    rw [hl']
    simpa [hid] using this
  each x hm := by
    have hg : ∀ y ∈ s.live, y.Sound s' := fun y hy => (h.each y hy).grow hb hn hc hi
    rw [hl'] at hm
    rw [hl] at hg
    simp only [List.mem_append, List.mem_cons] at hm hg
    rcases hm with hm | rfl | hm
    · exact hg x (.inl hm)
    · exact hc'
    · exact hg x (.inr (.inr hm))

theorem wakeTime_idle {s : Scheduler} {c : LiveCycle} {deadline : Nat}
    (hp : c.phase = .idle deadline) (hs : s.lifecycle ≠ .stopped) : s.wakeTime c = deadline := by
  simp [wakeTime, hp, isStopped, hs]

theorem wakeTime_waiting {s : Scheduler} {c : LiveCycle} {deadline late send : Nat}
    (hp : c.phase = .waiting deadline late send) :
    s.wakeTime c = (s.ending c deadline late send).1 := by
  simp [wakeTime, hp]

theorem Turn.sound {s s' : Scheduler} {l r : List LiveCycle} {c : LiveCycle} (h : s.Sound)
    (hl : s.live = l ++ c :: r) (hw : s.wakeTime c ≤ s.bench.now) (ht : Turn s l c r s') :
    s'.Sound := by
  have hcs : c.Sound s := h.each c (by simp [hl])
  have hsub : (l ++ r).Sublist s.live := by simp [hl]
  have hg := ht.grows
  cases ht with
  | cancelled | exhausted | delivered | notRearmed =>
    exact h.of_sublist hg rfl rfl (Nat.le_refl _) hsub id
  | unsent | retried =>
    refine h.of_replace hl rfl hg rfl rfl (Nat.le_refl _) rfl rfl ?_
    exact { hcs with begun := fun hp => by cases hp }
  | @sent deadline d hp hs =>
    rw [wakeTime_idle hp hs] at hw
    have hd : deadline + (s.bench.now - deadline) = s.bench.now := by omega
    refine h.of_replace hl rfl hg rfl rfl (Nat.le_refl _) rfl rfl ?_
    refine { hcs with begun := fun hp => ?_ }
    cases hp
    refine ⟨Nat.le_of_eq hd, by simp [Transport.send], ?_⟩
    rw [ending, hd]
    exact began_le_conclude _ _ _
  | rearmed hp ho hk hs =>
    have h' : Sound { s.note (c.attempt.verdict .success) with live := l ++ r } :=
      h.of_sublist (.note _ _) rfl rfl (Nat.le_refl _) hsub id
    exact h'.arm (h.ne_created hl) .slowRefresh

theorem Move.sound {s s' : Scheduler} (h : s.Sound) (hm : Move s s') : s'.Sound := by
  have hg := hm.grows
  cases hm.effect with
  | started hs =>
    have h' : Sound { s with lifecycle := .running } :=
      h.of_sublist (.refl _) rfl rfl (Nat.le_refl _) (List.Sublist.refl _) (fun _ => hs)
    exact h'.arm (by simp) .fastBringup
  | refreshed hs => exact h.arm (by simp [hs]) .adHoc
  | shutDown hs =>
    exact h.of_sublist hg rfl rfl (Nat.le_refl _) (List.Sublist.refl _) (fun hs' => by cases hs')
  | noted | unchanged | released =>
    exact h.of_sublist hg rfl rfl (Nat.le_refl _) (List.Sublist.refl _) id
  | waited time hw =>
    refine ⟨h.created, h.ordered, fun c hc => { h.each c hc with begun := fun hp => ?_ }⟩
    obtain ⟨h₁, h₂, h₃⟩ := (h.each c hc).begun hp
    refine ⟨Nat.le_trans h₁ (Nat.le_max_left _ _), h₂, Nat.max_le.mpr ⟨h₃, ?_⟩⟩
    exact wakeTime_waiting hp ▸ hw c hc
  | polled hl hw ht => exact ht.sound h hl hw

theorem Moves.sound {s s' : Scheduler} (h : s.Sound) (hm : Moves s s') : s'.Sound := by
  induction hm with
  | refl => exact h
  | tail _ hm ih => exact hm.sound ih

theorem Reachable.sound {s : Scheduler} (h : Reachable s) : s.Sound := by
  induction h with
  | fresh => exact ⟨fun _ => rfl, List.Pairwise.nil, fun _ hc => by cases hc⟩
  | move _ hm ih => exact hm.sound ih

end Scheduler
end Heartbeat
