import Heartbeat.Proofs.Agreement
import Heartbeat.Proofs.Budget

/-!
# Heartbeat.Proofs.Lines

The cycles of a scheduler fall into lines: the main chain, and each ad hoc cycle by itself.

* `Line.owns`           — the numbers of a line; a number that is not given yet is the chain's.
* `Reachable.closed`    — what a cycle arms is of its own line.
* `exists_line`         — every number is of some line.
* `Agree.takes`         — lines that agree do so after the same step, unless it waits for the end.
-/

namespace Heartbeat

namespace Scheduler

variable {s s' : Scheduler} {l r : List LiveCycle} {c : LiveCycle}

/-- Whether the log tells that a cycle was armed as an ad hoc one. -/
def isAdHoc (s : Scheduler) (id : Nat) : Bool :=
  s.bench.log.any fun e => e.event.cycle? == some id && e.event.arms .adHoc

theorem isAdHoc_iff {id : Nat} :
    s.isAdHoc id = true ↔ ∃ time delay, ⟨time, .armed id .adHoc delay⟩ ∈ s.bench.log := by
  simp only [isAdHoc, List.any_eq_true, Bool.and_eq_true, beq_iff_eq]
  constructor
  · rintro ⟨⟨time, e⟩, he, hc, ha⟩
    cases e with
    | armed i kind delay =>
      simp only [Event.cycle?, Option.some.injEq] at hc
      simp only [Event.arms, decide_eq_true_eq] at ha
      subst hc ha
      exact ⟨time, delay, he⟩
    | _ => cases ha
  · rintro ⟨time, delay, he⟩
    exact ⟨_, he, rfl, rfl⟩

theorem AddsNo.isAdHoc_eq (h : s.AddsNo (Event.arms .adHoc) s') : s'.isAdHoc = s.isAdHoc := by
  funext id
  rw [Bool.eq_iff_iff, isAdHoc_iff, isAdHoc_iff]
  constructor
  · rintro ⟨time, delay, he⟩
    exact ⟨time, delay, (h.mem_iff rfl).mp he⟩
  · rintro ⟨time, delay, he⟩
    exact ⟨time, delay, (h.mem_iff rfl).mpr he⟩

theorem isAdHoc_armAdHoc (s : Scheduler) (id : Nat) :
    (s.arm (.adHoc s.cadence)).isAdHoc id = (s.nextCycle == id || s.isAdHoc id) := by
  have hcons : (s.arm (.adHoc s.cadence)).isAdHoc id =
      (some s.nextCycle == some id && true || s.isAdHoc id) := rfl
  rw [hcons, Bool.and_true]
  rfl

theorem Turn.addsNo_adHoc (ht : Turn s l c r s') : s.AddsNo (Event.arms .adHoc) s' := by
  have hv : ∀ o, s.AddsNo (Event.arms .adHoc) (s.note (c.attempt.verdict o)) := fun o =>
    .of_cons rfl (Attempt.arms_verdict _ _ _)
  cases ht with
  | cancelled | exhausted | sent => exact .of_cons rfl rfl
  | unsent => exact .of_cons rfl (Attempt.arms_verdict _ _ _)
  | retried | delivered => exact hv _
  | rearmed | notRearmed => exact (hv _).trans (.of_cons rfl rfl)

theorem Passes.isAdHoc_eq {target : Nat} (h : Passes target s s') :
    s'.isAdHoc = s.isAdHoc := by
  induction h with
  | rest => rfl
  | step ha _ ih =>
    obtain ⟨l, c, r, _, _, _, ht⟩ := ha.turn
    rw [ih, ht.addsNo_adHoc.isAdHoc_eq]
    rfl

/-! ## Numbers that were given -/

theorem Reachable.isAdHoc_lt (h : Reachable s) {id : Nat} (hid : s.isAdHoc id = true) :
    id < s.nextCycle := by
  obtain ⟨time, delay, he⟩ := isAdHoc_iff.mp hid
  exact h.cycle_lt he rfl

theorem Reachable.isAdHoc_of_le (h : Reachable s) {id : Nat} (hid : s.nextCycle ≤ id) :
    s.isAdHoc id = false := by
  rw [Bool.eq_false_iff]
  intro ht
  have := h.isAdHoc_lt ht
  omega

/-- Of the live cycles those are ad hoc that the log says were armed so. -/
theorem Reachable.isAdHoc_of_live (h : Reachable s) (hc : c ∈ s.live) :
    s.isAdHoc c.attempt.cycle = !c.attempt.kind.isMain := by
  rcases h.told c.attempt.cycle with ⟨_, hg⟩ | ⟨k, laps, stage, hid, hr⟩
  · exact absurd rfl (hg c hc)
  · have hkind : ∀ {k : Course} {laps : List Lap} {stage : Stage}, s.Recorded k laps stage →
        k.id = c.attempt.cycle → c.attempt.kind = k.kind := by
      intro k laps stage hr hid
      have hlive := (hr.live c).mp ⟨hc, hid.symm⟩
      cases stage with
      | idle | waiting => cases hlive; rfl
      | _ => cases hlive
    rw [Bool.eq_iff_iff, isAdHoc_iff]
    constructor
    · rintro ⟨time, delay, he⟩
      obtain ⟨_, laps', stage', hr'⟩ := h.recorded he
      rw [hkind hr' rfl]
      rfl
    · intro hmain
      have hk : k.kind = .adHoc := by
        rw [hkind hr hid] at hmain
        cases hkk : k.kind with
        | adHoc => rfl
        | fastBringup | slowRefresh => rw [hkk] at hmain; cases hmain
      have he := mem_log_of_mem_history hr.arming_mem
      rw [hk, hid] at he
      exact ⟨_, _, he⟩

/-! ## Lines -/

/-- The main chain, or an ad hoc cycle. -/
inductive Line where
  | chain
  | adHoc (id : Nat)

namespace Line

/-- Whether a number is given to a cycle of a line, or will be. -/
def owns (s : Scheduler) : Line → Nat → Bool
  | chain, id => !s.isAdHoc id
  | adHoc i, id => id == i

/-- The lines of a scheduler. -/
def Of (s : Scheduler) : Line → Prop
  | chain => True
  | adHoc i => s.isAdHoc i = true

theorem owns_eq (h : s'.isAdHoc = s.isAdHoc) (σ : Line) : σ.owns s' = σ.owns s := by
  cases σ with
  | chain => funext id; simp only [owns, h]
  | adHoc i => rfl

theorem of_eq {σ : Line} (h : s'.isAdHoc = s.isAdHoc) (hσ : σ.Of s) : σ.Of s' := by
  cases σ with
  | chain => trivial
  | adHoc i => exact (congrFun h i).trans hσ

end Line

theorem exists_line (s : Scheduler) (id : Nat) : ∃ σ : Line, σ.Of s ∧ σ.owns s id = true := by
  by_cases h : s.isAdHoc id = true
  · exact ⟨.adHoc id, h, beq_self_eq_true id⟩
  · exact ⟨.chain, trivial, by simp [Line.owns, h]⟩

/-- The numbers to come are the chain's. -/
theorem Reachable.owns_of_le (h : Reachable s) {σ : Line} (hσ : σ.Of s) {id : Nat}
    (hid : s.nextCycle ≤ id) : σ.owns s id = σ.owns s s.nextCycle := by
  cases σ with
  | chain => simp only [Line.owns, h.isAdHoc_of_le hid, h.isAdHoc_of_le (Nat.le_refl _)]
  | adHoc i =>
    have := h.isAdHoc_lt hσ
    simp only [Line.owns, beq_eq_false_iff_ne.mpr (show id ≠ i by omega),
      beq_eq_false_iff_ne.mpr (show s.nextCycle ≠ i by omega)]

theorem Reachable.closed (h : Reachable s) {σ : Line} (hσ : σ.Of s) : s.Closed (σ.owns s) := by
  intro c hc hk id hid
  have hmain := (h.sound.each c hc).isMain_of_armSlowRefresh hk
  have hlive := h.isAdHoc_of_live hc
  rw [hmain] at hlive
  rw [h.owns_of_le hσ hid]
  cases σ with
  | chain => simp only [Line.owns, h.isAdHoc_of_le (Nat.le_refl _), hlive, Bool.not_true]
  | adHoc i =>
    have hne : c.attempt.cycle ≠ i := by
      rintro rfl
      cases hσ.symm.trans hlive
    have := h.isAdHoc_lt hσ
    simp only [Line.owns, beq_eq_false_iff_ne.mpr (show s.nextCycle ≠ i by omega),
      beq_eq_false_iff_ne.mpr hne]

/-- A refresh does not concern the lines that there are. -/
theorem Reachable.beside_refresh (h : Reachable s) {σ : Line} (hσ : σ.Of s) :
    Beside (σ.owns s) (σ.owns (s.arm (.adHoc s.cadence))) s (s.arm (.adHoc s.cadence)) := by
  have hsame : ∀ id, id ≠ s.nextCycle →
      σ.owns (s.arm (.adHoc s.cadence)) id = σ.owns s id := by
    intro id hid
    cases σ with
    | chain => simp [Line.owns, isAdHoc_armAdHoc, Ne.symm hid]
    | adHoc i => rfl
  refine beside_arm _ ?_ ?_ ?_ ?_
  · cases σ with
    | chain => simp [Line.owns, isAdHoc_armAdHoc]
    | adHoc i =>
      have := h.isAdHoc_lt hσ
      exact beq_eq_false_iff_ne.mpr (by omega)
  · refine List.filter_congr fun c hc => hsame _ ?_
    exact Nat.ne_of_lt (h.sound.each c hc).named
  · refine List.filter_congr fun e he => ?_
    cases hid : e.event.cycle? with
    | none => rfl
    | some id => exact hsame id (Nat.ne_of_lt (h.cycle_lt he hid))
  · rw [hsame _ (Nat.succ_ne_self _), h.owns_of_le hσ (Nat.le_succ _)]

/-! ## Lines that agree -/

/-- A line is at the same point in two schedulers. -/
def Line.Agrees (name : Nat → Nat) (σ : Line) (s t : Scheduler) : Prop :=
  Agree name (σ.owns s) (σ.owns t) s t

/-- Always the same descriptor, and the same reply. -/
structure Regular (built : Except ErrorChain Descriptor) (reply : Reply) (s : Scheduler) :
    Prop where
  reachable : Reachable s
  steady : s.bench.Steady built reply

section Regular

variable {built : Except ErrorChain Descriptor} {reply : Reply} {t t' : Scheduler}
  {name : Nat → Nat} {σ : Line}

theorem Regular.moves (h : s.Regular built reply) (hm : s.Moves s') : s'.Regular built reply :=
  ⟨h.reachable.moves hm, h.steady.grow hm.grows⟩

theorem Regular.tended (h : s.Regular built reply) (hσ : σ.Of s) :
    s.Tended built reply (σ.owns s) :=
  ⟨h.reachable.sound, h.steady, h.reachable.closed hσ⟩

namespace Line.Agrees

theorem of_owns (h : Agree name (σ.owns s) (σ.owns t) s' t') (hs : s'.isAdHoc = s.isAdHoc)
    (ht : t'.isAdHoc = t.isAdHoc) : σ.Agrees name s' t' := by
  rw [Agrees, owns_eq hs, owns_eq ht]
  exact h

theorem note {e : Event} (h : σ.Agrees name s t) (he : e.cycle? = none) :
    σ.Agrees name (s.note e) (t.note e) := by
  have hno : ∀ s : Scheduler, (s.note e).isAdHoc = s.isAdHoc := fun s =>
    AddsNo.isAdHoc_eq (.of_cons rfl (Event.arms_of_cycle? he _))
  exact of_owns (h.beside (beside_note he) (beside_note he) h.named) (hno s) (hno t)

theorem start (h : σ.Agrees name s t) (hs : Reachable s) (ht : Reachable t) (hσ : σ.Of s)
    (hσ' : σ.Of t) (hname : ∀ a b, name a = name b → name (a + 1) = name (b + 1))
    (hnow : t.bench.now = s.bench.now) : σ.Agrees name s.start.2 t.start.2 := by
  by_cases hc : s.lifecycle = .created
  · have hc' : t.lifecycle = .created := h.lifecycle.trans hc
    have howns : σ.owns s s.nextCycle = true := by
      cases σ with
      | chain => simp [owns, hs.isAdHoc_of_le (Nat.le_refl _)]
      | adHoc i =>
        obtain ⟨time, delay, he⟩ := isAdHoc_iff.mp hσ
        cases hs.unarmed hc _ he
    have hno : ∀ s : Scheduler,
        ({ s with lifecycle := .running }.arm (.fastBringup s.cadence)).isAdHoc = s.isAdHoc :=
      fun s => AddsNo.isAdHoc_eq (.of_cons rfl rfl)
    have hempty : s.strand (σ.owns s) = [] := by rw [strand, hs.sound.created hc]; rfl
    simp only [Scheduler.start, hc, hc', if_true]
    refine of_owns ?_ (hno s) (hno t)
    have hcycle : Cycle.fastBringup t.cadence = Cycle.fastBringup s.cadence := by rw [h.cadence]
    rw [hcycle]
    refine (h.turned .running hnow).arm _ hempty howns ?_ ?_ hnow
    · exact (ht.owns_of_le hσ' (Nat.le_succ _)).trans
        (h.coming.trans (hs.owns_of_le hσ (Nat.le_succ _)).symm)
    · exact fun _ => hname _ _ (h.named howns)
  · have hc' : t.lifecycle ≠ .created := fun hc' => hc (h.lifecycle.symm.trans hc')
    simp only [Scheduler.start, hc, hc', if_false]
    rw [h.lifecycle]
    exact h.note rfl

/-- A refresh on one side only, where numbers do not matter. -/
theorem refresh_left (h : σ.Agrees name s t) (hs : Reachable s) (hσ : σ.Of s)
    (hname : ∀ a b, name a = name b) : σ.Agrees name s.refresh.2 t := by
  by_cases hrun : s.lifecycle = .running
  · simp only [Scheduler.refresh, hrun, if_true]
    exact h.beside (hs.beside_refresh hσ) (.refl _ t) fun _ => hname _ _
  · simp only [Scheduler.refresh, hrun, if_false]
    have hno : (s.note (.refreshIgnored s.lifecycle)).isAdHoc = s.isAdHoc :=
      AddsNo.isAdHoc_eq (.of_cons rfl rfl)
    exact of_owns (h.frame (beside_note rfl) fun _ => rfl) hno rfl

theorem refresh (h : σ.Agrees name s t) (hs : Reachable s) (ht : Reachable t) (hσ : σ.Of s)
    (hσ' : σ.Of t) (hname : ∀ a b, name a = name b → name (a + 1) = name (b + 1)) :
    σ.Agrees name s.refresh.2 t.refresh.2 := by
  by_cases hrun : s.lifecycle = .running
  · have hrun' : t.lifecycle = .running := h.lifecycle.trans hrun
    simp only [Scheduler.refresh, hrun, hrun', if_true]
    have hbeside := hs.beside_refresh hσ
    refine h.beside hbeside (ht.beside_refresh hσ') fun ho => ?_
    exact hname _ _ (h.named (hbeside.coming.symm.trans ho))
  · have hrun' : t.lifecycle ≠ .running := fun hrun' => hrun (h.lifecycle.symm.trans hrun')
    simp only [Scheduler.refresh, hrun, hrun', if_false]
    rw [h.lifecycle]
    exact h.note rfl

theorem shutDown (h : σ.Agrees name s t) (hnow : t.bench.now = s.bench.now) :
    σ.Agrees name s.shutDown t.shutDown :=
  h.turned .stopped hnow

theorem passes {target : Nat} (h : σ.Agrees name s t)
    (hname : ∀ a b, name a = name b → name (a + 1) = name (b + 1))
    (hs : s.Regular built reply) (ht : t.Regular built reply) (hσ : σ.Of s) (hσ' : σ.Of t)
    (hns : s.bench.now ≤ target) (hn : t.bench.now ≤ target) (hp : Passes target s s')
    (hp' : Passes target t t') : σ.Agrees name s' t' :=
  of_owns (Agree.passes hname h (hs.tended hσ) (ht.tended hσ') hns hn hp hp') hp.isAdHoc_eq
    hp'.isAdHoc_eq

theorem wait {target : Nat} (h : σ.Agrees name s t) (hs : ∀ c ∈ s.live, target < s.wakeTime c)
    (ht : ∀ c ∈ t.live, target < t.wakeTime c) :
    σ.Agrees name (s.wait target) (t.wait target) := by
  refine h.beside (beside_wait fun c hc => ?_) (beside_wait fun c hc => ?_) h.named
  · exact Nat.le_trans (Nat.le_of_lt (hs c hc)) (Nat.le_max_right _ _)
  · exact Nat.le_trans (Nat.le_of_lt (ht c hc)) (Nat.le_max_right _ _)

end Line.Agrees

end Regular
end Scheduler

namespace Simulation

open Scheduler

section Steps

variable {m m' n n' : Simulation} {step : Step} {returned returned' : Option Bool}
  {built : Except ErrorChain Descriptor} {reply : Reply} {name : Nat → Nat} {σ : Line}

theorem stop_scheduler (m : Simulation) : (m.apply .stop).2.scheduler =
    if m.scheduler.lifecycle = .running then
      if m.facade = .reporter then m.scheduler.shutDown.note .reporterStopped
      else m.scheduler.shutDown
    else m.scheduler.note (.stopIgnored m.scheduler.lifecycle) := by
  by_cases hrun : m.scheduler.lifecycle = .running <;>
    by_cases hf : m.facade = .reporter <;> simp [apply, Scheduler.stop, hrun, hf]

/-- How long a step takes that does not wait for the end. -/
def duration : Step → Nat
  | .sleep ms => ms
  | _ => 0

theorem Takes.now_eq (h : Takes m step returned m') (hs : ∀ ms, step ≠ .stopped ms) :
    m'.scheduler.bench.now = m.scheduler.bench.now + duration step := by
  cases h with
  | start => simp only [apply, Scheduler.start]; split <;> rfl
  | refresh => simp only [apply, Scheduler.refresh]; split <;> rfl
  | stop => rw [stop_scheduler]; split_ifs <;> rfl
  | release => rfl
  | drop => simp only [apply, Scheduler.drop]; split <;> rfl
  | sleep hp => exact Nat.max_eq_right (hp.now_le (Nat.le_add_right _ _))
  | drained | drains | waitsInVain => exact absurd rfl (hs _)

theorem Takes.facade_eq (h : Takes m step returned m') : m'.facade = m.facade := by
  cases h <;> rfl

theorem Takes.dropped_eq (h : Takes m step returned m') (h' : Takes n step returned' n')
    (hd : n.dropped = m.dropped) : n'.dropped = m'.dropped := by
  cases h <;> cases h' <;> first | exact hd | rfl

/-- Lines that agree do so after the same step, unless it waits for the end. -/
theorem agrees_takes (h : σ.Agrees name m.scheduler n.scheduler)
    (hname : ∀ a b, name a = name b → name (a + 1) = name (b + 1))
    (hm : m.scheduler.Regular built reply) (hn : n.scheduler.Regular built reply)
    (hσ : σ.Of m.scheduler) (hσ' : σ.Of n.scheduler) (hfacade : n.facade = m.facade)
    (hnow : n.scheduler.bench.now = m.scheduler.bench.now)
    (hstopped : ∀ ms, step ≠ .stopped ms) (ht : Takes m step returned m')
    (ht' : Takes n step returned' n') : σ.Agrees name m'.scheduler n'.scheduler := by
  cases ht with
  | start =>
    cases ht'
    exact h.start hm.reachable hn.reachable hσ hσ' hname hnow
  | stop =>
    cases ht'
    rw [stop_scheduler, stop_scheduler, hfacade, h.lifecycle]
    by_cases hrun : m.scheduler.lifecycle = .running
    · by_cases hf : m.facade = .reporter
      · simp only [hrun, hf, if_true]
        exact (h.shutDown hnow).note rfl
      · simp only [hrun, hf, if_true, if_false]
        exact h.shutDown hnow
    · simp only [hrun, if_false]
      exact h.note rfl
  | refresh =>
    cases ht'
    exact h.refresh hm.reachable hn.reachable hσ hσ' hname
  | release r =>
    cases ht'
    exact Line.Agrees.of_owns
      (h.release hm.steady hn.steady hm.reachable hn.reachable hnow r) rfl rfl
  | drop =>
    cases ht'
    simp only [apply, Scheduler.drop, h.lifecycle]
    by_cases hrun : m.scheduler.lifecycle = .running
    · simp only [hrun, if_true]
      exact h.shutDown hnow
    · simp only [hrun, if_false]
      exact h
  | @sleep ms _ hp =>
    cases ht' with
    | sleep hp' =>
      rw [hnow] at hp' ⊢
      have hle : n.scheduler.bench.now ≤ m.scheduler.bench.now + ms :=
        Nat.le_trans (Nat.le_of_eq hnow) (Nat.le_add_right _ _)
      exact (h.passes hname hm hn hσ hσ' (Nat.le_add_right _ _) hle hp hp').wait hp.atRest
        hp'.atRest
  | drained | drains | waitsInVain => exact absurd rfl (hstopped _)

end Steps

/-- A scheduler that always gets the same descriptor and the same reply. -/
def constant (facade : Facade) (c : Cadence) (built : Except ErrorChain Descriptor)
    (reply : Reply) : Simulation where
  facade := facade
  scheduler := fresh c ⟨[], built, 0⟩ ⟨[], reply, 0⟩

theorem regular_constant {settings : Settings} {c : Cadence} (facade : Facade)
    (built : Except ErrorChain Descriptor) (reply : Reply)
    (word : settings.maxTries < UInt32.size) (accepted : settings.cadence = .ok c) :
    (constant facade c built reply).scheduler.Regular built reply :=
  ⟨.fresh word accepted rfl rfl, fun _ => rfl, fun _ => rfl⟩

/-- A line that is at the beginning in both. -/
theorem agrees_self (name : Nat → Nat) {s : Scheduler} (h : s.live = []) :
    Line.chain.Agrees name s s := by
  refine ⟨rfl, rfl, rfl, fun _ => rfl, rfl, ?_⟩
  rw [strand, h]
  exact .none

/-- A scheduler whose requests are all held back. -/
def heldBack : Simulation :=
  constant .scheduler brisk (.ok ⟨"a-1", "app", "host", "10.0.0.1", 1, "1.0", 0, [], false⟩)
    (.hold 0)

end Simulation
end Heartbeat
