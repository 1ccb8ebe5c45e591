import Heartbeat.Proofs.Shutdown

/-!
# Heartbeat.Proofs.MainChain

The main chain is neither lost nor doubled.

* `mainCount` — how many cycles of the main chain are live.
* `Broken`    — a slow refresh has used up its tries.
* `Chain`     — the invariant: at most one is live, none once the chain is broken, and exactly one
  while the scheduler runs before that.
-/

namespace Heartbeat

/-- Whether an event tells that the tries of a cycle are used up. -/
def Event.isExhausted : Event → Bool
  | .exhausted .. => true
  | _ => false

@[simp] theorem Attempt.isExhausted_verdict (a : Attempt) (o : Outcome) :
    (a.verdict o).isExhausted = false := by
  cases o <;> rfl

theorem Event.isExhausted_of_cycle? {e : Event} (h : e.cycle? = none) :
    e.isExhausted = false := by
  cases e <;> first | rfl | cases h

namespace Scheduler

/-- How many cycles of the chain there are in a list. -/
def chainCount (l : List LiveCycle) : Nat := l.countP fun c => c.attempt.kind.isMain

def mainCount (s : Scheduler) : Nat := chainCount s.live

def Broken (s : Scheduler) : Prop :=
  ∃ time id tries, ⟨time, .exhausted id .slowRefresh tries⟩ ∈ s.bench.log

structure Chain (s : Scheduler) : Prop where
  unbroken : s.lifecycle = .created → ¬ s.Broken
  ended : s.Broken → s.mainCount = 0
  atMostOne : s.mainCount ≤ 1
  runs : s.lifecycle = .running → ¬ s.Broken → s.mainCount = 1
  endless : ∀ time id tries, ⟨time, .exhausted id .fastBringup tries⟩ ∉ s.bench.log

/-- When no cycle is used up, only the number of live cycles of the chain counts. -/
theorem Chain.of_addsNo {s s' : Scheduler} (h : s.Chain) (he : s.AddsNo Event.isExhausted s')
    (hc : s'.lifecycle = .created → s.lifecycle = .created)
    (hle : s'.mainCount ≤ s.mainCount)
    (hr : s'.lifecycle = .running → s.lifecycle = .running ∧ s'.mainCount = s.mainCount) :
    s'.Chain := by
  have hmem : ∀ time id kind tries, ⟨time, .exhausted id kind tries⟩ ∈ s'.bench.log ↔
      ⟨time, .exhausted id kind tries⟩ ∈ s.bench.log := fun _ _ _ _ => he.mem_iff rfl
  have hb : s'.Broken ↔ s.Broken := by simp only [Broken, hmem]
  refine ⟨fun hs => ?_, fun hs => ?_, Nat.le_trans hle h.atMostOne, fun hs hn => ?_, ?_⟩
  · rw [hb]; exact h.unbroken (hc hs)
  · have := h.ended (hb.mp hs)
    omega
  · rw [(hr hs).2]
    exact h.runs (hr hs).1 fun hb' => hn (hb.mpr hb')
  · intro time id tries hm
    exact h.endless time id tries ((hmem _ _ _ _).mp hm)

@[simp] theorem chainCount_nil : chainCount [] = 0 := rfl

@[simp] theorem chainCount_append (l r : List LiveCycle) :
    chainCount (l ++ r) = chainCount l + chainCount r := List.countP_append

@[simp] theorem chainCount_cons (c : LiveCycle) (l : List LiveCycle) :
    chainCount (c :: l) = chainCount l + if c.attempt.kind.isMain then 1 else 0 :=
  List.countP_cons

/-- A bring-up has no limit, so it never finds its tries used up. -/
theorem kind_ne_fastBringup {s : Scheduler} {c : LiveCycle} {ticks : Nat} (h : c.Sound s)
    (ha : c.attempt.maxTries.allows ticks = false) : c.attempt.kind ≠ .fastBringup := by
  intro hk
  rw [h.maxTries, hk] at ha
  cases ha

theorem mainCount_eq {s : Scheduler} {l : List LiveCycle} (h : s.live = l) :
    s.mainCount = chainCount l := by
  rw [mainCount, h]

section Steps

variable {s s' : Scheduler} {l r : List LiveCycle} {c : LiveCycle}

theorem Chain.of_replaced {c' : LiveCycle} (h : s.Chain) (hl : s.live = l ++ c :: r)
    (hl' : s'.live = l ++ c' :: r) (hk : c'.attempt.kind = c.attempt.kind)
    (he : s.AddsNo Event.isExhausted s') (hst : s'.lifecycle = s.lifecycle) : s'.Chain := by
  have hcount : s'.mainCount = s.mainCount := by
    rw [mainCount_eq hl, mainCount_eq hl']
    simp [hk]
  exact h.of_addsNo he (fun hs => hst ▸ hs) (Nat.le_of_eq hcount) fun hrun =>
    ⟨hst ▸ hrun, hcount⟩

/-- A cycle ends that is not of the chain, or ends when the scheduler does not run. -/
theorem Chain.of_removed (h : s.Chain) (hl : s.live = l ++ c :: r) (hl' : s'.live = l ++ r)
    (he : s.AddsNo Event.isExhausted s') (hst : s'.lifecycle = s.lifecycle)
    (hk : s.lifecycle = .running → c.attempt.kind.isMain = false) : s'.Chain := by
  have hcount := mainCount_eq hl
  have hcount' := mainCount_eq hl'
  rw [chainCount_append, chainCount_cons] at hcount
  rw [chainCount_append] at hcount'
  refine h.of_addsNo he (fun hs => hst ▸ hs) (by omega) fun hrun => ⟨hst ▸ hrun, ?_⟩
  rw [hk (hst ▸ hrun), if_neg Bool.false_ne_true] at hcount
  omega

theorem Chain.of_rearmed {c' : LiveCycle} (h : s.Chain) (hl : s.live = l ++ c :: r)
    (hl' : s'.live = l ++ r ++ [c']) (hk : c.attempt.kind.isMain = true)
    (hk' : c'.attempt.kind.isMain = true) (he : s.AddsNo Event.isExhausted s')
    (hst : s'.lifecycle = s.lifecycle) : s'.Chain := by
  have hcount : s'.mainCount = s.mainCount := by
    rw [mainCount_eq hl, mainCount_eq hl']
    simp only [chainCount_append, chainCount_cons, chainCount_nil, hk, hk', if_pos]
    omega
  exact h.of_addsNo he (fun hs => hst ▸ hs) (Nat.le_of_eq hcount) fun hrun =>
    ⟨hst ▸ hrun, hcount⟩

/-- Nothing but an end of tries breaks the chain, and a slow refresh that has none left was the
one cycle of the chain. -/
theorem Chain.of_exhausted {time id tries : Nat} (h : s.Chain) (hl : s.live = l ++ c :: r)
    (hl' : s'.live = l ++ r)
    (hlog : s'.bench.log = ⟨time, .exhausted id c.attempt.kind tries⟩ :: s.bench.log)
    (hst : s'.lifecycle = s.lifecycle) (hcreated : s.lifecycle ≠ .created)
    (hk : c.attempt.kind ≠ .fastBringup) : s'.Chain := by
  have hcount := mainCount_eq hl
  have hcount' := mainCount_eq hl'
  rw [chainCount_append, chainCount_cons] at hcount
  rw [chainCount_append] at hcount'
  have hle := h.atMostOne
  refine ⟨fun hs => absurd (hst ▸ hs) hcreated, ?_, by omega, ?_, ?_⟩
  · -- the refresh just used up was the one cycle of the chain, or there was none before
    rintro ⟨t, i, n, hm⟩
    rw [hlog, List.mem_cons] at hm
    rcases hm with hm | hm
    · have hkind : CycleKind.slowRefresh = c.attempt.kind := by
        injection hm with _ he
        injection he
      rw [← hkind, CycleKind.isMain, if_pos rfl] at hcount
      omega
    · have := h.ended ⟨t, i, n, hm⟩
      omega
  · intro hrun hn
    cases hkind : c.attempt.kind with
    | fastBringup => exact absurd hkind hk
    | slowRefresh => exact absurd ⟨time, id, tries, by simp [hlog, hkind]⟩ hn
    | adHoc =>
      have hb : ¬ s.Broken := fun ⟨t, i, n, hm⟩ => hn ⟨t, i, n, by simp [hlog, hm]⟩
      have := h.runs (hst ▸ hrun) hb
      rw [hkind, CycleKind.isMain, if_neg Bool.false_ne_true] at hcount
      omega
  · intro t i n hm
    rw [hlog, List.mem_cons] at hm
    rcases hm with hm | hm
    · have hkind : CycleKind.fastBringup = c.attempt.kind := by
        injection hm with _ he
        injection he
      exact hk hkind.symm
    · exact h.endless t i n hm

theorem Turn.chain (hs : s.Sound) (h : s.Chain) (hl : s.live = l ++ c :: r)
    (ht : Turn s l c r s') : s'.Chain := by
  have hcs : c.Sound s := hs.each c (by simp [hl])
  have hv : ∀ o, (c.attempt.verdict o).isExhausted = false := Attempt.isExhausted_verdict _
  cases ht with
  | cancelled hp hst =>
    refine h.of_removed hl rfl (.of_cons rfl rfl) rfl fun hrun => ?_
    cases hst.symm.trans hrun
  | exhausted hp hst ha =>
    exact h.of_exhausted hl rfl rfl rfl (hs.ne_created hl)
      (kind_ne_fastBringup hcs ha)
  | unsent | sent => exact h.of_replaced hl rfl rfl (.of_cons rfl rfl) rfl
  | retried => exact h.of_replaced hl rfl rfl (.of_cons rfl (hv _)) rfl
  | delivered hp ho hk =>
    exact h.of_removed hl rfl (.of_cons rfl (hv _)) rfl fun _ => hcs.isMain_of_nothing hk
  | rearmed hp ho hk hrun =>
    have h₁ : s.AddsNo Event.isExhausted (s.note (c.attempt.verdict .success)) :=
      .of_cons rfl (hv _)
    exact h.of_rearmed hl rfl (hcs.isMain_of_armSlowRefresh hk) rfl (h₁.trans (.of_cons rfl rfl))
      rfl
  | notRearmed hp ho hk hrun =>
    have h₁ : s.AddsNo Event.isExhausted (s.note (c.attempt.verdict .success)) :=
      .of_cons rfl (hv _)
    exact h.of_removed hl rfl (h₁.trans (.of_cons rfl rfl)) rfl fun hr => absurd hr hrun

end Steps

theorem Move.chain {s s' : Scheduler} (hs : s.Sound) (h : s.Chain) (hm : Move s s') :
    s'.Chain := by
  cases hm.effect with
  | started hst =>
    have he : s.AddsNo Event.isExhausted
        ({ s with lifecycle := .running }.arm (.fastBringup s.cadence)) := .of_cons rfl rfl
    have hb : ¬ Broken ({ s with lifecycle := .running }.arm (.fastBringup s.cadence)) :=
      fun ⟨time, id, tries, hm⟩ =>
        h.unbroken hst ⟨time, id, tries, (he.mem_iff rfl).mp hm⟩
    have hcount :
        mainCount ({ s with lifecycle := .running }.arm (.fastBringup s.cadence)) = 1 := by
      rw [mainCount_eq (arm_live _ _), hs.created hst]
      rfl
    refine ⟨fun hc => ?_, fun hb' => absurd hb' hb, Nat.le_of_eq hcount, fun _ _ => hcount, ?_⟩
    · cases hc
    · intro time id tries hm
      exact h.endless time id tries ((he.mem_iff rfl).mp hm)
  | refreshed hst =>
    have hcount : (s.arm (.adHoc s.cadence)).mainCount = s.mainCount := by
      rw [mainCount_eq (arm_live s _)]
      simp [armed, Cycle.adHoc, CycleKind.isMain, mainCount]
    exact h.of_addsNo (.of_cons rfl rfl) id (Nat.le_of_eq hcount) fun hr => ⟨hr, hcount⟩
  | shutDown hst =>
    exact h.of_addsNo (.refl _ s) (fun hc => by cases hc) (Nat.le_refl _) fun hr => by cases hr
  | noted he =>
    exact h.of_addsNo (.of_cons rfl (Event.isExhausted_of_cycle? he)) id (Nat.le_refl _)
      fun hr => ⟨hr, rfl⟩
  | unchanged => exact h
  | released | waited =>
    exact h.of_addsNo (.refl _ s) id (Nat.le_refl _) fun hr => ⟨hr, rfl⟩
  | polled hl _ ht => exact ht.chain hs h hl

theorem Reachable.chain {s : Scheduler} (h : Reachable s) : s.Chain := by
  induction h with
  | fresh =>
    refine ⟨fun _ hb => ?_, fun _ => rfl, Nat.zero_le _, fun hr => ?_, fun _ _ _ hm => ?_⟩
    · obtain ⟨_, _, _, hm⟩ := hb
      cases hm
    · cases hr
    · cases hm
  | move hr hm ih => exact hm.chain hr.sound ih

theorem Broken.moves {s s' : Scheduler} (h : s.Broken) (hm : Moves s s') : s'.Broken := by
  obtain ⟨time, id, tries, he⟩ := h
  exact ⟨time, id, tries, hm.grows.log.subset he⟩

end Scheduler

open Scheduler

/-- **The main chain is conserved.** Of the cycles of the chain none is live before the start, one
while the scheduler runs, and at most one, that was live at the stop, afterwards; a slow refresh
that uses up its tries ends the chain for good; a bring-up never does. -/
theorem main_chain_conserved {s : Scheduler} (h : Reachable s) :
    (s.lifecycle = .created → s.mainCount = 0) ∧
      (s.lifecycle = .running → ¬ s.Broken → s.mainCount = 1) ∧
      (s.Broken → ∀ s', s.Moves s' → s'.mainCount = 0) ∧
      (s.lifecycle = .stopped → s.mainCount ≤ 1 ∧
        ∀ s', s.Moves s' → ∀ c' ∈ s'.live, ∃ c ∈ s.live, identity c = identity c') ∧
      ∀ time id tries, ⟨time, .exhausted id .fastBringup tries⟩ ∉ s.bench.log := by
  have hc := h.chain
  refine ⟨fun hs => ?_, hc.runs, fun hb s' hm => ?_, fun hs => ⟨hc.atMostOne, ?_⟩, hc.endless⟩
  · rw [mainCount, h.sound.created hs]
    rfl
  · exact (h.moves hm).chain.ended (hb.moves hm)
  · intro s' hm c' hc'
    exact List.mem_map.mp ((hm.windsDown hs).live.subset (List.mem_map_of_mem hc'))

namespace Simulation

/-- A reporter whose collector refuses everything after the first delivery. -/
def shortLived : Simulation := sampled [.ack] .refused [.start, .sleep 200]

/-- Its refresh uses up its two tries by 120 ms, and asking for another one later does not bring
the chain back. -/
theorem shortLived_is_broken :
    shortLived.scheduler.Broken ∧ mainCount shortLived.scheduler.refresh.2 = 0 := by
  have broken : shortLived.scheduler.Broken := ⟨120, 2, 2, by decide⟩
  have conserved := main_chain_conserved (reachable_sampled [.ack] .refused [.start, .sleep 200])
  exact ⟨broken, conserved.2.2.1 broken _ (.single .refresh)⟩

end Simulation
end Heartbeat
