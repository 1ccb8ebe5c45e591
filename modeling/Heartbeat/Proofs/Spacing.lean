import Heartbeat.Proofs.MainChain
import Heartbeat.Proofs.Pace

/-!
# Heartbeat.Proofs.Spacing

How far apart the slow refreshes of a run are armed.

* `Reachable.past`    — the log tells of nothing that is still to come.
* `Reachable.unarmed` — before the start it tells of no cycle at all.
* `Spaced`            — the invariant: no refresh is armed before the bring-up is delivered, nor
  within a refresh interval of the one before it.
-/

namespace Heartbeat

namespace Event

/-- Whether an event arms a cycle of a kind. -/
def arms (kind : CycleKind) : Event → Bool
  | .armed _ k _ => k = kind
  | _ => false

def deliversBringup : Event → Bool
  | .delivered _ .fastBringup _ => true
  | _ => false

/-- Whether the spacing of the refreshes depends on an event. -/
def isMilestone (e : Event) : Bool := e.arms .slowRefresh || e.deliversBringup

theorem arms_of_cycle? {e : Event} (h : e.cycle? = none) (kind : CycleKind) :
    e.arms kind = false := by
  cases e <;> first | rfl | cases h

theorem isMilestone_of_cycle? {e : Event} (h : e.cycle? = none) : e.isMilestone = false := by
  cases e <;> first | rfl | cases h

end Event

@[simp] theorem Attempt.arms_verdict (a : Attempt) (o : Outcome) (kind : CycleKind) :
    (a.verdict o).arms kind = false := by
  cases o <;> rfl

theorem Attempt.isMilestone_verdict {a : Attempt} {o : Outcome}
    (h : o.isSuccess = true → a.kind ≠ .fastBringup) : (a.verdict o).isMilestone = false := by
  rw [Event.isMilestone, arms_verdict, Bool.false_or]
  cases o with
  | failure | timeout => rfl
  | success =>
    have hk := h rfl
    cases hkind : a.kind with
    | fastBringup => exact absurd hkind hk
    | slowRefresh | adHoc => simp [verdict, hkind, Event.deliversBringup]

namespace Scheduler

variable {s s' : Scheduler} {l r : List LiveCycle} {c : LiveCycle}

/-- When the slow refreshes were armed, the last one first. -/
def refreshTimes (s : Scheduler) : List Nat :=
  (s.bench.log.filter (·.event.arms .slowRefresh)).map (·.time)

/-- The bring-up was delivered at a time. -/
def BroughtUpAt (s : Scheduler) (time : Nat) : Prop :=
  ∃ id tick, ⟨time, .delivered id .fastBringup tick⟩ ∈ s.bench.log

/-! ## What is in the log -/

theorem Move.logs (hm : Move s s') :
    ∃ new, s'.bench.log = new ++ s.bench.log ∧ ∀ e ∈ new, e.time = s.bench.now := by
  cases hm.effect with
  | started | refreshed | noted => exact ⟨[_], rfl, by simp⟩
  | shutDown | unchanged | released | waited => exact ⟨[], rfl, by simp⟩
  | polled _ _ ht =>
    cases ht with
    | cancelled | exhausted | unsent | sent | retried | delivered => exact ⟨[_], rfl, by simp⟩
    | rearmed | notRearmed => exact ⟨[_, _], rfl, by simp⟩

theorem Move.past (hm : Move s s') (h : ∀ e ∈ s.bench.log, e.time ≤ s.bench.now) :
    ∀ e ∈ s'.bench.log, e.time ≤ s'.bench.now := by
  obtain ⟨new, hl, hn⟩ := hm.logs
  intro e he
  rw [hl, List.mem_append] at he
  have hle := hm.grows.now
  rcases he with he | he
  · rw [hn e he]; exact hle
  · exact Nat.le_trans (h e he) hle

theorem Reachable.past (h : Reachable s) : ∀ e ∈ s.bench.log, e.time ≤ s.bench.now := by
  induction h with
  | fresh => intro e he; cases he
  | move _ hm ih => exact hm.past ih

theorem Reachable.unarmed (h : Reachable s) (hs : s.lifecycle = .created) :
    ∀ e ∈ s.bench.log, e.event.cycle? = none := by
  induction h with
  | fresh => intro e he; cases he
  | @move s s' h hm ih =>
    cases hm.effect with
    | started | shutDown => cases hs
    | refreshed hr => exact absurd (hr.symm.trans hs) (by decide)
    | noted he =>
      intro x hx
      rcases List.mem_cons.mp hx with rfl | hx
      · exact he
      · exact ih hs x hx
    | unchanged | released | waited => exact ih hs
    | polled hl _ ht =>
      have hne := h.sound.ne_created hl
      have hlc : s'.lifecycle = s.lifecycle := by cases ht <;> rfl
      exact absurd (hlc ▸ hs) hne

/-! ## The refreshes -/

structure Spaced (s : Scheduler) : Prop where
  first : ∀ c ∈ s.live, c.attempt.kind = .fastBringup → s.refreshTimes = []
  chained : ∀ c ∈ s.live, c.attempt.kind = .slowRefresh → s.refreshTimes ≠ []
  /-- A live refresh is due a refresh interval after any arming, its own included. -/
  ahead : ∀ c ∈ s.live, c.attempt.kind = .slowRefresh →
    ∀ a ∈ s.refreshTimes, a + s.cadence.refreshInterval ≤ c.phase.deadline
  apart : s.refreshTimes.Pairwise fun later earlier =>
    earlier + s.cadence.refreshInterval ≤ later
  broughtUp : s.refreshTimes ≠ [] → ∃ b, s.BroughtUpAt b
  after : ∀ a ∈ s.refreshTimes, ∀ b, s.BroughtUpAt b → b ≤ a

/-- Nothing is to be spaced before the first refresh. -/
theorem Spaced.of_none (hn : s.refreshTimes = [])
    (hl : ∀ c ∈ s.live, c.attempt.kind ≠ .slowRefresh) : s.Spaced := by
  refine ⟨fun _ _ _ => hn, ?_, ?_, ?_, ?_, ?_⟩
  · intro c hc hk
    exact absurd hk (hl c hc)
  · intro c hc hk
    exact absurd hk (hl c hc)
  · rw [hn]
    exact List.Pairwise.nil
  · intro hne
    exact absurd hn hne
  · intro a ha
    rw [hn] at ha
    cases ha

theorem AddsNo.refreshTimes (h : s.AddsNo Event.isMilestone s') :
    s'.refreshTimes = s.refreshTimes := by
  obtain ⟨new, hl, hn⟩ := h
  have hnone : new.filter (·.event.arms .slowRefresh) = [] := by
    rw [List.filter_eq_nil_iff]
    intro e he
    have := hn e he
    simp only [Event.isMilestone, Bool.or_eq_false_iff] at this
    simp [this.1]
  rw [Scheduler.refreshTimes, hl, List.filter_append, hnone, List.nil_append, Scheduler.refreshTimes]

theorem AddsNo.broughtUpAt (h : s.AddsNo Event.isMilestone s') (b : Nat) :
    s'.BroughtUpAt b ↔ s.BroughtUpAt b := by
  simp only [BroughtUpAt, h.mem_iff (e := ⟨b, .delivered _ .fastBringup _⟩) rfl]

/-- Without a milestone the spacing stays, as long as no live cycle comes nearer. -/
theorem Spaced.of_addsNo (h : s.Spaced) (he : s.AddsNo Event.isMilestone s')
    (hc : s'.cadence = s.cadence)
    (hl : ∀ x' ∈ s'.live, x'.attempt.kind.isMain = true → ∃ x ∈ s.live,
      x.attempt.kind = x'.attempt.kind ∧ x.phase.deadline ≤ x'.phase.deadline) : s'.Spaced := by
  have ht := he.refreshTimes
  refine ⟨?_, ?_, ?_, ?_, ?_, ?_⟩
  · intro x' hx' hk
    obtain ⟨x, hx, hkind, _⟩ := hl x' hx' (by rw [hk]; rfl)
    rw [ht]
    exact h.first x hx (hkind.trans hk)
  · intro x' hx' hk
    obtain ⟨x, hx, hkind, _⟩ := hl x' hx' (by rw [hk]; rfl)
    rw [ht]
    exact h.chained x hx (hkind.trans hk)
  · intro x' hx' hk a ha
    obtain ⟨x, hx, hkind, hd⟩ := hl x' hx' (by rw [hk]; rfl)
    rw [ht] at ha
    rw [hc]
    exact Nat.le_trans (h.ahead x hx (hkind.trans hk) a ha) hd
  · rw [ht, hc]; exact h.apart
  · rw [ht]
    intro hne
    obtain ⟨b, hb⟩ := h.broughtUp hne
    exact ⟨b, (he.broughtUpAt b).mpr hb⟩
  · rw [ht]
    intro a ha b hb
    exact h.after a ha b ((he.broughtUpAt b).mp hb)

theorem Spaced.of_subset (h : s.Spaced) (he : s.AddsNo Event.isMilestone s')
    (hc : s'.cadence = s.cadence) (hl : ∀ x ∈ s'.live, x ∈ s.live) : s'.Spaced := by
  refine h.of_addsNo he hc ?_
  intro x hx _
  exact ⟨x, hl x hx, rfl, Nat.le_refl _⟩

theorem Spaced.of_replaced {c' : LiveCycle} (h : s.Spaced) (hl : s.live = l ++ c :: r)
    (hl' : s'.live = l ++ c' :: r) (he : s.AddsNo Event.isMilestone s')
    (hc : s'.cadence = s.cadence) (hk : c'.attempt.kind = c.attempt.kind)
    (hd : c.phase.deadline ≤ c'.phase.deadline) : s'.Spaced := by
  refine h.of_addsNo he hc ?_
  intro x hx _
  rw [hl'] at hx
  rw [hl]
  simp only [List.mem_append, List.mem_cons] at hx ⊢
  rcases hx with hx | rfl | hx
  · exact ⟨x, .inl hx, rfl, Nat.le_refl _⟩
  · exact ⟨c, .inr (.inl rfl), hk.symm, hd⟩
  · exact ⟨x, .inr (.inr hx), rfl, Nat.le_refl _⟩

/-- Beside a live cycle of the chain there is no other. -/
theorem Chain.alone (h : s.Chain) (hl : s.live = l ++ c :: r)
    (hk : c.attempt.kind.isMain = true) : ∀ x ∈ l ++ r, x.attempt.kind.isMain = false := by
  have hle := h.atMostOne
  rw [mainCount_eq hl, chainCount_append, chainCount_cons, if_pos hk] at hle
  have hz : chainCount (l ++ r) = 0 := by rw [chainCount_append]; omega
  intro x hx
  have := List.countP_eq_zero.mp hz x hx
  simpa using this

theorem filter_arms_verdict (a : Attempt) (o : Outcome) (time : Nat) (log : List Entry) :
    (⟨time, a.verdict o⟩ :: log).filter (·.event.arms .slowRefresh) =
      log.filter (·.event.arms .slowRefresh) :=
  List.filter_cons_of_neg (by simp)

/-- A cycle of the chain delivers, and is gone. -/
theorem Spaced.of_delivered (hch : s.Chain) (h : s.Spaced) (hl : s.live = l ++ c :: r)
    (hk : c.attempt.kind.isMain = true) :
    Spaced { s.note (c.attempt.verdict .success) with live := l ++ r } := by
  have halone := hch.alone hl hk
  cases hkind : c.attempt.kind with
  | adHoc => rw [hkind] at hk; cases hk
  | slowRefresh =>
    refine h.of_subset (.of_cons rfl (Attempt.isMilestone_verdict ?_)) rfl ?_
    · intro _ hb
      rw [hkind] at hb
      cases hb
    · have hsub : (l ++ r).Sublist s.live := by simp [hl]
      exact fun _ hx => hsub.subset hx
  | fastBringup =>
    -- no refresh has been armed, and none is live
    have hnone : refreshTimes { s.note (c.attempt.verdict .success) with live := l ++ r } = [] := by
      have := h.first c (by simp [hl]) hkind
      rw [refreshTimes, List.map_eq_nil_iff] at this ⊢
      exact (filter_arms_verdict _ _ _ _).trans this
    refine .of_none hnone ?_
    intro x hx hkx
    have := halone x hx
    rw [hkx] at this
    cases this

theorem refreshTimes_arm (s : Scheduler) (c : Cadence) :
    (s.arm (.slowRefresh c)).refreshTimes = s.bench.now :: s.refreshTimes := by
  simp [refreshTimes, arm, note, Bench.note, Event.arms, Cycle.slowRefresh]

/-- The next refresh is armed with no cycle of the chain beside it. -/
theorem Spaced.arm (h : s.Spaced) (hm : ∀ x ∈ s.live, x.attempt.kind.isMain = false)
    (hd : ∀ a ∈ s.refreshTimes, a + s.cadence.refreshInterval ≤ s.bench.now)
    (hb : ∃ b, s.BroughtUpAt b) (hp : ∀ e ∈ s.bench.log, e.time ≤ s.bench.now) :
    (s.arm (.slowRefresh s.cadence)).Spaced := by
  have htimes := s.refreshTimes_arm s.cadence
  have hup : ∀ b, (s.arm (.slowRefresh s.cadence)).BroughtUpAt b ↔ s.BroughtUpAt b := by
    intro b
    simp [BroughtUpAt, Scheduler.arm, note, Bench.note]
  refine ⟨?_, ?_, ?_, ?_, ?_, ?_⟩
  · intro x hx hk
    rw [arm_live, List.mem_append, List.mem_singleton] at hx
    rcases hx with hx | rfl
    · have := hm x hx
      rw [hk] at this
      cases this
    · cases hk
  · intro _ _ _
    simp [htimes]
  · intro x hx hk a ha
    rw [htimes, List.mem_cons] at ha
    rw [arm_live, List.mem_append, List.mem_singleton] at hx
    rcases hx with hx | rfl
    · have := hm x hx
      rw [hk] at this
      cases this
    · change a + s.cadence.refreshInterval ≤ s.bench.now + s.cadence.refreshInterval
      rcases ha with rfl | ha
      · exact Nat.le_refl _
      · have := hd a ha
        omega
  · rw [htimes]
    exact List.pairwise_cons.mpr ⟨hd, h.apart⟩
  · intro _
    obtain ⟨b, hb⟩ := hb
    exact ⟨b, (hup b).mpr hb⟩
  · rw [htimes]
    intro a ha b hb'
    rw [hup] at hb'
    rcases List.mem_cons.mp ha with rfl | ha
    · obtain ⟨id, tick, hmem⟩ := hb'
      exact hp _ hmem
    · exact h.after a ha b hb'

theorem Turn.spaced (hs : s.Sound) (hch : s.Chain)
    (hpast : ∀ e ∈ s.bench.log, e.time ≤ s.bench.now) (h : s.Spaced)
    (hl : s.live = l ++ c :: r) (ht : Turn s l c r s') : s'.Spaced := by
  have hc : c ∈ s.live := by simp [hl]
  have hcs := hs.each c hc
  have hsub : (l ++ r).Sublist s.live := by simp [hl]
  have hquiet : ∀ o, o.isSuccess = false → (c.attempt.verdict o).isMilestone = false := by
    intro o ho
    refine Attempt.isMilestone_verdict ?_
    intro hso
    rw [ho] at hso
    cases hso
  cases ht with
  | cancelled | exhausted => exact h.of_subset (.of_cons rfl rfl) rfl fun _ hx => hsub.subset hx
  | @unsent deadline chain hp =>
    refine h.of_replaced hl rfl (.of_cons rfl ?_) rfl rfl ?_
    · exact Attempt.isMilestone_verdict (fun hso => by cases hso)
    · rw [hp]
      exact Nat.le_of_lt (deadline_lt_nextDeadline _ _ c.period_pos)
  | sent hp =>
    refine h.of_replaced hl rfl (.of_cons rfl rfl) rfl rfl ?_
    rw [hp]
    exact Nat.le_refl _
  | retried hp _ ho =>
    refine h.of_replaced hl rfl (.of_cons rfl (hquiet _ ho)) rfl rfl ?_
    rw [hp]
    exact Nat.le_of_lt (deadline_lt_nextDeadline _ _ c.period_pos)
  | delivered _ _ hk =>
    have hm := hcs.isMain_of_nothing hk
    refine h.of_subset (.of_cons rfl (Attempt.isMilestone_verdict ?_)) rfl fun _ hx => hsub.subset hx
    intro _ hb
    rw [hb] at hm
    cases hm
  | notRearmed _ _ hk =>
    have hd := h.of_delivered hch hl (hcs.isMain_of_armSlowRefresh hk)
    exact hd.of_subset (.of_cons rfl rfl) rfl fun _ hx => hx
  | @rearmed deadline late send hp _ hk =>
    have hm := hcs.isMain_of_armSlowRefresh hk
    have hd := h.of_delivered hch hl hm
    have hbegun := (hcs.begun hp).1
    have hadd : refreshTimes { s.note (c.attempt.verdict .success) with live := l ++ r } =
        s.refreshTimes := by
      rw [refreshTimes, refreshTimes]
      exact congrArg _ (filter_arms_verdict _ _ _ _)
    refine hd.arm (hch.alone hl hm) ?_ ?_ ?_
    · -- the refresh that ends here was due long after every arming
      rw [hadd]
      intro a ha
      cases hkind : c.attempt.kind with
      | fastBringup => rw [h.first c hc hkind] at ha; cases ha
      | adHoc => rw [hkind] at hm; cases hm
      | slowRefresh =>
        have hahead := h.ahead c hc hkind a ha
        rw [hp] at hahead
        exact Nat.le_trans hahead (Nat.le_trans (Nat.le_add_right _ _) hbegun)
    · cases hkind : c.attempt.kind with
      | fastBringup =>
        exact ⟨s.bench.now, c.attempt.cycle, c.attempt.ticks, by
          simp [note, Bench.note, Attempt.verdict, hkind]⟩
      | adHoc => rw [hkind] at hm; cases hm
      | slowRefresh =>
        obtain ⟨b, id, tick, hb⟩ := h.broughtUp (h.chained c hc hkind)
        exact ⟨b, id, tick, List.mem_cons_of_mem _ hb⟩
    · intro e he
      rcases List.mem_cons.mp he with rfl | he
      · exact Nat.le_refl _
      · exact hpast e he

theorem Move.spaced (hr : Reachable s) (h : s.Spaced) (hm : Move s s') : s'.Spaced := by
  have hs := hr.sound
  cases hm.effect with
  | started hst =>
    have hnone : refreshTimes ({ s with lifecycle := .running }.arm (.fastBringup s.cadence)) =
        [] := by
      rw [refreshTimes, List.map_eq_nil_iff, List.filter_eq_nil_iff]
      intro e he
      rcases List.mem_cons.mp he with rfl | he
      · simp [Event.arms, Cycle.fastBringup]
      · simp [Event.arms_of_cycle? (hr.unarmed hst e he)]
    refine .of_none hnone ?_
    intro x hx hk
    rw [arm_live, hs.created hst, List.nil_append, List.mem_singleton] at hx
    rw [hx] at hk
    cases hk
  | refreshed =>
    refine h.of_addsNo (.of_cons rfl rfl) rfl ?_
    intro x hx hk
    rw [arm_live, List.mem_append, List.mem_singleton] at hx
    rcases hx with hx | rfl
    · exact ⟨x, hx, rfl, Nat.le_refl _⟩
    · cases hk
  | noted he =>
    exact h.of_subset (.of_cons rfl (Event.isMilestone_of_cycle? he)) rfl fun _ hx => hx
  | shutDown | unchanged | released | waited =>
    exact h.of_subset (.refl _ s) rfl fun _ hx => hx
  | polled hl _ ht => exact ht.spaced hs hr.chain hr.past h hl

theorem Reachable.spaced (h : Reachable s) : s.Spaced := by
  induction h with
  | fresh => exact .of_none rfl fun _ hc => by cases hc
  | move h hm ih => exact hm.spaced h ih

end Scheduler
end Heartbeat
