import Heartbeat.Proofs.Orders
import Heartbeat.Proofs.Scripts

/-!
# Heartbeat.Proofs.Strand

A strand is a set of cycle numbers of which one is live at a time: a single cycle, or the main
chain.

* `Tended`     — the scheduler always gets the same descriptor and the same reply, and what a cycle
  of the strand arms is of the strand.
* `Shape`      — what the poll of a cycle does to the cycles and to the log, whatever it is.
* `Beside`     — nothing has happened to a strand, whatever has happened besides.
* `Turn.beside` — so it is after the poll of a cycle outside it.
-/

namespace Heartbeat

/-- An event with another number for its cycle. -/
def Event.renamed (f : Nat → Nat) : Event → Event
  | armed c kind delay => armed (f c) kind delay
  | sending c agentId => sending (f c) agentId
  | delivered c kind tick => delivered (f c) kind tick
  | failed c kind tick failure => failed (f c) kind tick failure
  | timedOut c kind tick => timedOut (f c) kind tick
  | exhausted c kind tries => exhausted (f c) kind tries
  | cancelled c kind => cancelled (f c) kind
  | notRearmed c => notRearmed (f c)
  | e => e

theorem Event.renamed_id (e : Event) : e.renamed id = e := by
  cases e <;> rfl

def Entry.renamed (f : Nat → Nat) (e : Entry) : Entry := ⟨e.time, e.event.renamed f⟩

/-- The same factory answer to every call, and the same reply to every send. -/
structure Bench.Steady (built : Except ErrorChain Descriptor) (reply : Reply) (b : Bench) :
    Prop where
  built : ∀ n, b.factory.item n = built
  reply : ∀ n, b.transport.script.item n = reply

theorem Bench.Steady.grow {built : Except ErrorChain Descriptor} {reply : Reply} {b b' : Bench}
    (h : b.Steady built reply) (hg : b.Grows b') : b'.Steady built reply :=
  ⟨hg.factory ▸ h.built, hg.script ▸ h.reply⟩

theorem Bench.Steady.wait {built : Except ErrorChain Descriptor} {reply : Reply} {s : Scheduler}
    {time : Nat} (h : s.bench.Steady built reply) : (s.wait time).bench.Steady built reply :=
  ⟨h.built, h.reply⟩

theorem Bench.Steady.factory_next {built : Except ErrorChain Descriptor} {reply : Reply}
    {b : Bench} (h : b.Steady built reply) : b.factory.next = built :=
  h.built b.factory.taken

theorem Bench.Steady.script_next {built : Except ErrorChain Descriptor} {reply : Reply}
    {b : Bench} (h : b.Steady built reply) : b.transport.script.next = reply :=
  h.reply b.transport.script.taken

namespace Scheduler

/-- The live cycles of a strand. -/
def strand (s : Scheduler) (own : Nat → Bool) : List LiveCycle :=
  s.live.filter fun c => own c.attempt.cycle

/-- What the log says of a strand, the last entry first. -/
def trail (s : Scheduler) (own : Nat → Bool) : List Entry :=
  s.bench.log.filter fun e => e.event.cycle?.any own

/-- A cycle that is to arm another is of the same strand. -/
def Closed (own : Nat → Bool) (s : Scheduler) : Prop :=
  ∀ c ∈ s.live, c.onSuccess = .armSlowRefresh → ∀ id, s.nextCycle ≤ id →
    own id = own c.attempt.cycle

structure Tended (built : Except ErrorChain Descriptor) (reply : Reply) (own : Nat → Bool)
    (s : Scheduler) : Prop where
  sound : s.Sound
  steady : s.bench.Steady built reply
  closed : s.Closed own

/-! ## The shape of a turn -/

/-- A poll after which the cycle goes on. -/
structure Continues (s : Scheduler) (l : List LiveCycle) (c : LiveCycle) (r : List LiveCycle)
    (s' : Scheduler) (c' : LiveCycle) (e : Entry) : Prop where
  cadence : s'.cadence = s.cadence
  lifecycle : s'.lifecycle = s.lifecycle
  nextCycle : s'.nextCycle = s.nextCycle
  live : s'.live = l ++ c' :: r
  cycle : c'.attempt.cycle = c.attempt.cycle
  onSuccess : c'.onSuccess = c.onSuccess
  log : s'.bench.log = e :: s.bench.log
  told : e.event.cycle? = some c.attempt.cycle

/-- A poll after which the cycle is gone. -/
structure Ends (s : Scheduler) (l : List LiveCycle) (c : LiveCycle) (r : List LiveCycle)
    (s' : Scheduler) (new : List Entry) : Prop where
  cadence : s'.cadence = s.cadence
  lifecycle : s'.lifecycle = s.lifecycle
  nextCycle : s'.nextCycle = s.nextCycle
  live : s'.live = l ++ r
  log : s'.bench.log = new ++ s.bench.log
  told : ∀ e ∈ new, e.event.cycle? = some c.attempt.cycle

/-- What a turn does to the cycles and to the log, whatever it is. -/
inductive Shape (s : Scheduler) (l : List LiveCycle) (c : LiveCycle) (r : List LiveCycle)
    (s' : Scheduler) : Prop where
  | continued {c' : LiveCycle} {e : Entry} : Continues s l c r s' c' e → Shape s l c r s'
  | ended {new : List Entry} : Ends s l c r s' new → Shape s l c r s'
  | rearmed {s₁ : Scheduler} {new : List Entry} :
      Ends s l c r s₁ new → c.onSuccess = .armSlowRefresh →
      s' = s₁.arm (.slowRefresh s.cadence) → Shape s l c r s'

section Turns

variable {s s' : Scheduler} {l r : List LiveCycle} {c : LiveCycle}

theorem ends_note {e : Event} (he : e.cycle? = some c.attempt.cycle) :
    Ends s l c r { s.note e with live := l ++ r } [⟨s.bench.now, e⟩] :=
  ⟨rfl, rfl, rfl, rfl, rfl, by simpa using he⟩

/-- A delivery that comes after a stop is told of twice. -/
theorem ends_late : Ends s l c r
    { (s.note (c.attempt.verdict .success)).note (.notRearmed c.attempt.cycle) with
      live := l ++ r }
    [⟨s.bench.now, .notRearmed c.attempt.cycle⟩, ⟨s.bench.now, c.attempt.verdict .success⟩] :=
  ⟨rfl, rfl, rfl, rfl, rfl, by simp [Event.cycle?, Attempt.verdict]⟩

theorem Turn.shape (ht : Turn s l c r s') : Shape s l c r s' := by
  have hv : ∀ o, (c.attempt.verdict o).cycle? = some c.attempt.cycle := c.attempt.cycle?_verdict
  cases ht with
  | cancelled | exhausted => exact .ended (ends_note rfl)
  | @unsent _ chain =>
    exact .continued ⟨rfl, rfl, rfl, rfl, rfl, rfl, rfl,
      Attempt.cycle?_verdict c.attempt.count (.fail .descriptor chain.message)⟩
  | sent => exact .continued ⟨rfl, rfl, rfl, rfl, rfl, rfl, rfl, rfl⟩
  | @retried _ _ _ o => exact .continued ⟨rfl, rfl, rfl, rfl, rfl, rfl, rfl, hv o⟩
  | delivered => exact .ended (ends_note (hv _))
  | rearmed _ _ hk => exact .rearmed (ends_note (hv _)) hk rfl
  | notRearmed => exact .ended ends_late

theorem Turn.lifecycle_eq (ht : Turn s l c r s') : s'.lifecycle = s.lifecycle := by
  cases ht <;> rfl

theorem Turn.sends (ht : Turn s l c r s') :
    ∃ more, s'.bench.transport.sends = s.bench.transport.sends ++ more := by
  cases ht with
  | sent => exact ⟨[_], rfl⟩
  | _ => exact ⟨[], (List.append_nil _).symm⟩

theorem Turn.closed {own : Nat → Bool} (h : s.Closed own) (hl : s.live = l ++ c :: r)
    (ht : Turn s l c r s') : s'.Closed own := by
  have hsub : ∀ x ∈ l ++ r, x ∈ s.live := by
    intro x hx
    have : (l ++ r).Sublist s.live := by simp [hl]
    exact this.subset hx
  have hc : c ∈ s.live := by simp [hl]
  intro x hx hk id hid
  cases ht.shape with
  | @continued c' e hc' =>
    rw [hc'.live, List.mem_append, List.mem_cons] at hx
    rw [hc'.nextCycle] at hid
    rcases hx with hx | rfl | hx
    · exact h x (hsub x (List.mem_append_left _ hx)) hk id hid
    · rw [hc'.cycle]
      exact h c hc (hc'.onSuccess.symm.trans hk) id hid
    · exact h x (hsub x (List.mem_append_right _ hx)) hk id hid
  | ended he =>
    rw [he.live] at hx
    rw [he.nextCycle] at hid
    exact h x (hsub x hx) hk id hid
  | @rearmed s₁ _ he hsucc hs' =>
    rw [hs', arm_nextCycle, he.nextCycle] at hid
    rw [hs', arm_live, he.live, List.mem_append, List.mem_singleton] at hx
    rcases hx with hx | rfl
    · exact h x (hsub x hx) hk id (by omega)
    · -- the cycle just armed and all to come are of the strand of the one that armed it
      have hx : (s₁.armed (.slowRefresh s.cadence)).attempt.cycle = s.nextCycle := he.nextCycle
      rw [hx, h c hc hsucc _ (Nat.le_refl _)]
      exact h c hc hsucc id (by omega)

theorem trail_of_append {own : Nat → Bool} (new : List Entry)
    (hlog : s'.bench.log = new ++ s.bench.log)
    (hnew : ∀ e ∈ new, e.event.cycle?.any own = true) : s'.trail own = new ++ s.trail own := by
  rw [trail, hlog, List.filter_append, List.filter_eq_self.mpr hnew, trail]

theorem trail_of_append_other {own : Nat → Bool} (new : List Entry)
    (hlog : s'.bench.log = new ++ s.bench.log)
    (hnew : ∀ e ∈ new, e.event.cycle?.any own = false) : s'.trail own = s.trail own := by
  have hnone : new.filter (fun e => e.event.cycle?.any own) = [] := by
    rw [List.filter_eq_nil_iff]
    intro e he
    simp [hnew e he]
  rw [trail, hlog, List.filter_append, hnone, List.nil_append, trail]

theorem Sound.wait {time : Nat} (h : s.Sound)
    (hw : ∀ c ∈ s.live, time ≤ max s.bench.now (s.wakeTime c)) : (s.wait time).Sound := by
  refine ⟨h.created, h.ordered, fun c hc => { h.each c hc with begun := fun hp => ?_ }⟩
  obtain ⟨h₁, h₂, h₃⟩ := (h.each c hc).begun hp
  have hle := hw c hc
  rw [wakeTime_waiting hp, Nat.max_eq_right h₃] at hle
  exact ⟨Nat.le_trans h₁ (Nat.le_max_left _ _), h₂, Nat.max_le.mpr ⟨h₃, hle⟩⟩

/-- More sends do not tell when a cycle that is live is ready. -/
theorem wakeTime_of_sends {more : List Sent} (hc : c.Sound s)
    (hlifecycle : s'.lifecycle = s.lifecycle)
    (hsends : s'.bench.transport.sends = s.bench.transport.sends ++ more) :
    s'.wakeTime c = s.wakeTime c := by
  cases hp : c.phase with
  | idle deadline => simp [wakeTime, hp, isStopped, hlifecycle]
  | waiting deadline late send =>
    obtain ⟨_, hlt, _⟩ := hc.begun hp
    rw [wakeTime_waiting hp, wakeTime_waiting hp]
    simp only [ending, Bench.awaits, Transport.settlement?, hsends,
      List.getElem?_append_left hlt]

/-- Between two states nothing has happened to a strand; what is counted to it may have changed for
cycles that are neither live nor in the log. -/
structure Beside (own own₁ : Nat → Bool) (s s' : Scheduler) : Prop where
  cadence : s'.cadence = s.cadence
  lifecycle : s'.lifecycle = s.lifecycle
  strand : s'.strand own₁ = s.strand own
  trail : s'.trail own₁ = s.trail own
  coming : own₁ s'.nextCycle = own s.nextCycle
  sends : ∃ more, s'.bench.transport.sends = s.bench.transport.sends ++ more
  clock : ∀ c ∈ s.strand own, max s'.bench.now (s'.wakeTime c) = max s.bench.now (s.wakeTime c)

variable {own own₁ : Nat → Bool}

theorem Beside.refl (own : Nat → Bool) (s : Scheduler) : Beside own own s s :=
  ⟨rfl, rfl, rfl, rfl, rfl, ⟨[], (List.append_nil _).symm⟩, fun _ _ => rfl⟩

theorem beside_wait {time : Nat} (h : ∀ c ∈ s.live, time ≤ max s.bench.now (s.wakeTime c)) :
    Beside own own s (s.wait time) := by
  refine ⟨rfl, rfl, rfl, rfl, rfl, ⟨[], (List.append_nil _).symm⟩, ?_⟩
  intro c hc
  have := h c (List.mem_filter.mp hc).1
  have hw : (s.wait time).wakeTime c = s.wakeTime c := rfl
  rw [hw, wait_bench, Bench.moveTo_now]
  omega

theorem beside_note {e : Event} (he : e.cycle? = none) : Beside own own s (s.note e) := by
  refine ⟨rfl, rfl, rfl, ?_, rfl, ⟨[], (List.append_nil _).symm⟩, fun _ _ => rfl⟩
  exact trail_of_append_other [_] rfl (by simp [he])

/-- A cycle is armed outside a strand, to which it may or may not have been counted before. -/
theorem beside_arm (x : Cycle) (hout : own₁ s.nextCycle = false)
    (hstrand : s.strand own₁ = s.strand own) (htrail : s.trail own₁ = s.trail own)
    (hcoming : own₁ (s.nextCycle + 1) = own s.nextCycle) : Beside own own₁ s (s.arm x) := by
  refine ⟨rfl, rfl, ?_, ?_, hcoming, ⟨[], (List.append_nil _).symm⟩, fun _ _ => rfl⟩
  · rw [← hstrand]
    simp [strand, armed, hout]
  · rw [← htrail]
    exact trail_of_append_other [_] rfl (by simp [Event.cycle?, hout])

theorem Ends.beside {new : List Entry} (he : Ends s l c r s' new) (hl : s.live = l ++ c :: r)
    (ho : own c.attempt.cycle = false) :
    s'.strand own = s.strand own ∧ s'.trail own = s.trail own := by
  refine ⟨by simp [strand, hl, he.live, ho], ?_⟩
  exact trail_of_append_other new he.log fun e hm => by simp [he.told e hm, ho]

/-- A turn of a cycle outside a strand leaves the strand alone. -/
theorem Turn.beside (hs : s.Sound) (h : s.Closed own) (hl : s.live = l ++ c :: r)
    (ho : own c.attempt.cycle = false) (ht : Turn s l c r s') :
    Beside own own s s' ∧ (own s'.nextCycle = true → s'.nextCycle = s.nextCycle) := by
  obtain ⟨more, hmore⟩ := ht.sends
  have hclock : ∀ x ∈ s.strand own,
      max s'.bench.now (s'.wakeTime x) = max s.bench.now (s.wakeTime x) := by
    intro x hx
    rw [ht.now_eq, wakeTime_of_sends (hs.each x (List.mem_filter.mp hx).1) ht.lifecycle_eq hmore]
  cases ht.shape with
  | @continued _ e hc' =>
    refine ⟨⟨ht.cadence_eq, ht.lifecycle_eq, ?_, ?_, ?_, ⟨more, hmore⟩, hclock⟩,
      fun _ => hc'.nextCycle⟩
    · simp [strand, hl, hc'.live, hc'.cycle, ho]
    · exact trail_of_append_other [e] hc'.log (by simp [hc'.told, ho])
    · rw [hc'.nextCycle]
  | ended he =>
    obtain ⟨hstrand, htrail⟩ := he.beside hl ho
    exact ⟨⟨ht.cadence_eq, ht.lifecycle_eq, hstrand, htrail, by rw [he.nextCycle], ⟨more, hmore⟩,
      hclock⟩, fun _ => he.nextCycle⟩
  | @rearmed s₁ _ he hsucc hs' =>
    have hnext : ∀ id, s.nextCycle ≤ id → own id = false := fun id hid =>
      (h c (by simp [hl]) hsucc id hid).trans ho
    obtain ⟨hstrand, htrail⟩ := he.beside hl ho
    have harm : Beside own own s₁ (s₁.arm (.slowRefresh s.cadence)) := by
      refine beside_arm _ ?_ rfl rfl ?_
      · rw [he.nextCycle, hnext _ (Nat.le_refl _)]
      · rw [he.nextCycle, hnext _ (Nat.le_succ _), hnext _ (Nat.le_refl _)]
    rw [← hs'] at harm
    refine ⟨⟨ht.cadence_eq, ht.lifecycle_eq, harm.strand.trans hstrand, harm.trail.trans htrail,
      harm.coming.trans (by rw [he.nextCycle]), ⟨more, hmore⟩, hclock⟩, fun hin => ?_⟩
    rw [harm.coming, he.nextCycle, hnext _ (Nat.le_refl _)] at hin
    cases hin

end Turns

theorem Tended.advances {built : Except ErrorChain Descriptor} {reply : Reply}
    {own : Nat → Bool} {s s' : Scheduler} {target : Nat} (h : s.Tended built reply own)
    (ha : Advances target s s') : s'.Tended built reply own := by
  obtain ⟨l, c, r, hl, _, _, ht⟩ := ha.turn
  have hm := ha.moves
  exact ⟨hm.sound h.sound, h.steady.grow hm.grows, ht.closed (s := s.wait _) h.closed hl⟩

end Scheduler
end Heartbeat
