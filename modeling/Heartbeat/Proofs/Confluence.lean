import Heartbeat.Proofs.Arrangement
import Heartbeat.Proofs.Lines

/-!
# Heartbeat.Proofs.Confluence

The order in which cycles are polled that are ready at one time does not matter.

* `Matches`     — two schedulers agree on all their lines and on what the log tells besides.
* `Same`        — two simulations that could report the same from here on.
* `same_takes`  — the same step keeps them so, in whatever order it polls, and returns the same.
* `report_eq`   — so it reports the same.
-/

namespace Heartbeat

theorem Entry.map_renamed_id (log : List Entry) : log.map (Entry.renamed id) = log := by
  have hid : Entry.renamed id = id := funext fun e => by rw [renamed, Event.renamed_id]; rfl
  rw [hid, List.map_id]

namespace Scheduler

variable {built : Except ErrorChain Descriptor} {reply : Reply} {s s' t t' : Scheduler}
  {target : Nat}

/-- What the log tells of no cycle. -/
def silent (s : Scheduler) : List Entry := Entry.ofClass none s.bench.log

theorem Ends.silent_eq {l r : List LiveCycle} {c : LiveCycle} {new : List Entry}
    (h : Ends s l c r s' new) : s'.silent = s.silent := by
  rw [silent, h.log]
  exact Entry.ofClass_append_other new _ fun e he => by simp [h.told e he]

theorem Turn.silent_eq {l r : List LiveCycle} {c : LiveCycle} (ht : Turn s l c r s') :
    s'.silent = s.silent := by
  cases ht.shape with
  | @continued _ e h =>
    rw [silent, h.log]
    exact Entry.ofClass_append_other [e] _ (by simp [h.told])
  | ended h => exact h.silent_eq
  | @rearmed s₁ _ h _ hs' =>
    have harm : (s₁.arm (.slowRefresh s.cadence)).silent = s₁.silent :=
      Entry.ofClass_append_other [_] _ (by simp [Event.cycle?])
    rw [hs', harm, h.silent_eq]

theorem Passes.silent_eq (h : Passes target s s') : s'.silent = s.silent := by
  induction h with
  | rest => rfl
  | step ha _ ih =>
    obtain ⟨l, c, r, _, _, _, ht⟩ := ha.turn
    exact ih.trans ht.silent_eq

/-- The log has an entry of this very time. -/
def Stamped (s : Scheduler) : Prop := ∃ e ∈ s.bench.log, e.time = s.bench.now

theorem Turn.stamped {l r : List LiveCycle} {c : LiveCycle} (ht : Turn s l c r s') :
    s'.Stamped := by
  cases ht <;> exact ⟨_, List.mem_cons_self .., rfl⟩

theorem Passes.stamped (h : Passes target s s') : s' = s ∨ s'.Stamped := by
  induction h with
  | rest => exact .inl rfl
  | step ha _ ih =>
    obtain ⟨l, c, r, _, _, _, ht⟩ := ha.turn
    rcases ih with rfl | ih
    · exact .inr ht.stamped
    · exact .inr ih

/-! ## Schedulers that match -/

/-- Two schedulers agree on all lines, and their logs on what is of no line. -/
structure Matches (built : Except ErrorChain Descriptor) (reply : Reply) (s t : Scheduler) :
    Prop where
  regular : s.Regular built reply
  regular' : t.Regular built reply
  adHoc : t.isAdHoc = s.isAdHoc
  lines : ∀ σ : Line, σ.Of s → σ.Agrees id s t
  silent : t.silent = s.silent

namespace Matches

theorem symm (h : Matches built reply s t) : Matches built reply t s :=
  ⟨h.regular', h.regular, h.adHoc.symm, fun σ hσ => (h.lines σ (σ.of_eq h.adHoc.symm hσ)).symm,
    h.silent.symm⟩

theorem lifecycle (h : Matches built reply s t) : t.lifecycle = s.lifecycle :=
  (h.lines .chain trivial).lifecycle

theorem cadence (h : Matches built reply s t) : t.cadence = s.cadence :=
  (h.lines .chain trivial).cadence

/-- The number to be given next is the chain's. -/
theorem nextCycle (h : Matches built reply s t) : t.nextCycle = s.nextCycle := by
  refine (h.lines .chain trivial).named ?_
  simp [Line.owns, h.regular.reachable.isAdHoc_of_le (Nat.le_refl _)]

/-- What the log tells of a cycle is in the trail of its line. -/
theorem ofClass_trail {own : Nat → Bool} {cycle : Nat} (ho : own cycle = true) (s : Scheduler) :
    Entry.ofClass (some cycle) (s.trail own) = Entry.ofClass (some cycle) s.bench.log := by
  rw [Entry.ofClass, trail, List.filter_filter, Entry.ofClass]
  refine List.filter_congr fun e _ => ?_
  by_cases h : e.event.cycle? = some cycle <;> simp [h, ho]

theorem sameOfEach (h : Matches built reply s t) :
    Entry.SameOfEach t.bench.log s.bench.log := by
  intro k
  cases k with
  | none => exact h.silent
  | some cycle =>
    obtain ⟨σ, hσ, ho⟩ := s.exists_line cycle
    have ho' : σ.owns t cycle = true := by rw [σ.owns_eq h.adHoc, ho]
    have htrail := (h.lines σ hσ).trail
    rw [Entry.map_renamed_id, Entry.map_renamed_id] at htrail
    rw [← ofClass_trail ho', ← ofClass_trail ho, htrail]

theorem mem_cycles (h : Matches built reply s t) {cycle : Nat}
    (hcycle : cycle ∈ s.live.map (·.attempt.cycle)) : cycle ∈ t.live.map (·.attempt.cycle) := by
  obtain ⟨c, hc, rfl⟩ := List.mem_map.mp hcycle
  obtain ⟨σ, hσ, ho⟩ := s.exists_line c.attempt.cycle
  obtain ⟨l, r, hl⟩ := List.append_of_mem hc
  obtain ⟨⟨d, hd, halike, _⟩, _⟩ := (h.lines σ hσ).live.of_mem hl ho
  have hmem : d ∈ t.strand (σ.owns t) := by rw [hd]; exact List.mem_singleton_self d
  exact List.mem_map.mpr ⟨d, (List.mem_filter.mp hmem).1, halike.named⟩

/-- The same cycles are live, in the order of their numbers. -/
theorem cycles (h : Matches built reply s t) :
    t.live.map (·.attempt.cycle) = s.live.map (·.attempt.cycle) := by
  have hs := h.regular.reachable.sound.ordered
  have ht := h.regular'.reachable.sound.ordered
  have hperm : (t.live.map (·.attempt.cycle)).Perm (s.live.map (·.attempt.cycle)) := by
    rw [List.perm_ext_iff_of_nodup (ht.imp Nat.ne_of_lt) (hs.imp Nat.ne_of_lt)]
    exact fun cycle => ⟨h.symm.mem_cycles, h.mem_cycles⟩
  exact hperm.eq_of_pairwise (fun a b _ _ hab hba => absurd hab (Nat.lt_asymm hba)) ht hs

theorem isDrained (h : Matches built reply s t) : t.isDrained = s.isDrained := by
  have hlength := congrArg List.length h.cycles
  simp only [List.length_map] at hlength
  simp only [Scheduler.isDrained, isStopped, h.lifecycle]
  congr 1
  cases hs : s.live <;> cases ht : t.live <;> simp [hs, ht] at hlength ⊢

theorem now_eq (h : Matches built reply s t) (hs : s.Stamped) (ht : t.Stamped) :
    t.bench.now = s.bench.now := by
  obtain ⟨e, he, hnow⟩ := hs
  obtain ⟨e', he', hnow'⟩ := ht
  have hle := h.regular'.reachable.past e (h.symm.sameOfEach.mem he)
  have hle' := h.regular.reachable.past e' (h.sameOfEach.mem he')
  omega

theorem passes (h : Matches built reply s t) (hns : s.bench.now ≤ target)
    (hn : t.bench.now ≤ target) (hp : Passes target s s') (hp' : Passes target t t') :
    Matches built reply s' t' := by
  refine ⟨h.regular.moves hp.moves, h.regular'.moves hp'.moves, ?_, fun σ hσ => ?_, ?_⟩
  · rw [hp.isAdHoc_eq, hp'.isAdHoc_eq, h.adHoc]
  · have hσ' : σ.Of s := σ.of_eq hp.isAdHoc_eq.symm hσ
    exact (h.lines σ hσ').passes (fun _ _ hab => congrArg (· + 1) hab) h.regular h.regular' hσ'
      (σ.of_eq h.adHoc hσ') hns hn hp hp'
  · rw [hp.silent_eq, hp'.silent_eq, h.silent]

theorem wait (h : Matches built reply s t) (hs : ∀ c ∈ s.live, target < s.wakeTime c)
    (ht : ∀ c ∈ t.live, target < t.wakeTime c) :
    Matches built reply (s.wait target) (t.wait target) := by
  have hm : ∀ {s : Scheduler}, (∀ c ∈ s.live, target < s.wakeTime c) → s.Moves (s.wait target) :=
    fun hs => .single (.wait _ fun c hc => Nat.le_of_lt (hs c hc))
  exact ⟨h.regular.moves (hm hs), h.regular'.moves (hm ht), h.adHoc,
    fun σ hσ => (h.lines σ (σ.of_eq rfl hσ)).wait hs ht, h.silent⟩

/-- An ad hoc cycle that is armed in both begins in both at the same point. -/
theorem begins (h : Matches built reply s t) (hnow : t.bench.now = s.bench.now) (x : Cycle) :
    Agree id (· == s.nextCycle) (· == s.nextCycle) (s.arm x) (t.arm x) := by
  have hnext := h.nextCycle
  have hout : ∀ {s : Scheduler}, Reachable s → s.strand (· == s.nextCycle) = [] ∧
      s.trail (· == s.nextCycle) = [] := by
    intro s hs
    simp only [strand, trail, List.filter_eq_nil_iff]
    refine ⟨fun c hc => ?_, fun e he => ?_⟩
    · simpa using Nat.ne_of_lt (hs.sound.each c hc).named
    · cases hid : e.event.cycle? with
      | none => simp
      | some cycle => simpa using Nat.ne_of_lt (hs.cycle_lt he hid)
  obtain ⟨hstrand, htrail⟩ := hout h.regular.reachable
  obtain ⟨hstrand', htrail'⟩ := hout h.regular'.reachable
  rw [hnext] at hstrand' htrail'
  have hbefore : Agree id (· == s.nextCycle) (· == s.nextCycle) s t := by
    refine ⟨h.cadence, h.lifecycle, by rw [hnext], fun _ => hnext, by rw [htrail, htrail'], ?_⟩
    rw [hstrand, hstrand']
    exact .none
  exact hbefore.arm x hstrand (beq_self_eq_true _) (by rw [hnext])
    (fun _ => congrArg (· + 1) hnext) hnow

theorem refresh (h : Matches built reply s t) (hnow : t.bench.now = s.bench.now) :
    t.refresh.2.isAdHoc = s.refresh.2.isAdHoc ∧
      ∀ σ : Line, σ.Of s.refresh.2 → σ.Agrees id s.refresh.2 t.refresh.2 := by
  have hold : ∀ σ : Line, σ.Of s → σ.Agrees id s.refresh.2 t.refresh.2 := fun σ hσ =>
    (h.lines σ hσ).refresh h.regular.reachable h.regular'.reachable hσ (σ.of_eq h.adHoc hσ)
      fun _ _ hab => congrArg (· + 1) hab
  by_cases hrun : s.lifecycle = .running
  · have hrun' : t.lifecycle = .running := h.lifecycle.trans hrun
    simp only [Scheduler.refresh, hrun, hrun', if_true] at hold ⊢
    have hadHoc : (t.arm (.adHoc t.cadence)).isAdHoc = (s.arm (.adHoc s.cadence)).isAdHoc := by
      funext cycle
      rw [isAdHoc_armAdHoc, isAdHoc_armAdHoc, h.nextCycle, h.adHoc]
    refine ⟨hadHoc, fun σ hσ => ?_⟩
    cases σ with
    | chain => exact hold .chain trivial
    | adHoc i =>
      have hi : (s.nextCycle == i || s.isAdHoc i) = true := (isAdHoc_armAdHoc s i).symm.trans hσ
      rw [Bool.or_eq_true, beq_iff_eq] at hi
      rcases hi with rfl | hi
      · have hcycle : Cycle.adHoc t.cadence = Cycle.adHoc s.cadence := by rw [h.cadence]
        rw [hcycle]
        exact h.begins hnow _
      · exact hold (.adHoc i) hi
  · have hrun' : t.lifecycle ≠ .running := fun hrun' => hrun (h.lifecycle.symm.trans hrun')
    simp only [Scheduler.refresh, hrun, hrun', if_false] at hold ⊢
    have hno : ∀ s : Scheduler, (s.note (.refreshIgnored s.lifecycle)).isAdHoc = s.isAdHoc :=
      fun s => AddsNo.isAdHoc_eq (.of_cons rfl rfl)
    refine ⟨by rw [hno, hno, h.adHoc], fun σ hσ => hold σ (σ.of_eq (hno s).symm hσ)⟩

/-! ## What is reported -/

/-- The sends were made at the same times. -/
theorem times (h : Matches built reply s t) :
    t.bench.transport.sends.map (·.time) = s.bench.transport.sends.map (·.time) := by
  rw [h.regular.reachable.send_times, h.regular'.reachable.send_times]
  have horder : ∀ {s : Scheduler}, Reachable s → s.sendingTimes.Pairwise (· ≥ ·) := fun hs =>
    (hs.log_in_order.filter _).map _ fun _ _ hle => hle
  have hperm : t.sendingTimes.Perm s.sendingTimes := (h.sameOfEach.perm.filter _).map _
  congr 1
  exact hperm.eq_of_pairwise (fun a b _ _ hab hba => Nat.le_antisymm hba hab)
    (horder h.regular'.reachable) (horder h.regular.reachable)

/-- What has been added to the logs is arranged in the same way. -/
theorem events (h : Matches built reply s t) (h' : Matches built reply s' t')
    (hs : s.bench.log <:+ s'.bench.log) (ht : t.bench.log <:+ t'.bench.log) :
    Entry.arrange (t'.bench.log.take (t'.bench.log.length - t.bench.log.length)).reverse =
      Entry.arrange (s'.bench.log.take (s'.bench.log.length - s.bench.log.length)).reverse := by
  obtain ⟨new, hnew⟩ := hs
  obtain ⟨new', hnew'⟩ := ht
  have horder : ∀ {s : Scheduler} {new old : List Entry}, Reachable s → new ++ old = s.bench.log →
      new.reverse.Pairwise fun a b => a.time ≤ b.time := by
    intro s new old hr hl
    have := hr.log_in_order
    rw [← hl, List.pairwise_append] at this
    exact List.pairwise_reverse.mpr this.1
  have hsame : Entry.SameOfEach new' new :=
    .of_append (by rw [hnew, hnew']; exact h'.sameOfEach) h.sameOfEach
  have horders := horder h'.regular'.reachable hnew'
  have horders' := horder h'.regular.reachable hnew
  have htake : ∀ xs ys : List Entry, (xs ++ ys).take ((xs ++ ys).length - ys.length) = xs := by
    simp
  rw [← hnew, ← hnew', htake, htake]
  exact Entry.arrange_eq hsame.reverse horders horders'

end Matches
end Scheduler

namespace Simulation

open Scheduler

variable {built : Except ErrorChain Descriptor} {reply : Reply} {m m' n n' : Simulation}
  {step : Step} {returned returned' : Option Bool}

/-- What a step tells of no cycle. -/
def said (m : Simulation) : Step → List Entry
  | .start =>
    if m.scheduler.lifecycle = .created then []
    else [⟨m.scheduler.bench.now, .startIgnored m.scheduler.lifecycle⟩]
  | .refresh =>
    if m.scheduler.lifecycle = .running then []
    else [⟨m.scheduler.bench.now, .refreshIgnored m.scheduler.lifecycle⟩]
  | .stop =>
    if m.scheduler.lifecycle = .running then
      if m.facade = .reporter then [⟨m.scheduler.bench.now, .reporterStopped⟩] else []
    else [⟨m.scheduler.bench.now, .stopIgnored m.scheduler.lifecycle⟩]
  | _ => []

theorem Takes.silent_eq (h : Takes m step returned m') :
    m'.scheduler.silent = m.said step ++ m.scheduler.silent := by
  have harm : ∀ (s : Scheduler) (x : Cycle), (s.arm x).silent = s.silent := fun s x =>
    Entry.ofClass_append_other [_] _ (by simp [Event.cycle?])
  have hnote : ∀ (s : Scheduler) {e : Event}, e.cycle? = none →
      (s.note e).silent = ⟨s.bench.now, e⟩ :: s.silent := by
    intro s e he
    rw [silent, note_bench, Bench.note_log, Entry.ofClass, List.filter_cons_of_pos (by simp [he])]
    rfl
  cases h with
  | start =>
    by_cases hc : m.scheduler.lifecycle = .created
    · simp only [apply, Scheduler.start, said, hc, if_true, List.nil_append]
      exact harm { m.scheduler with lifecycle := .running } _
    · simp only [apply, Scheduler.start, said, hc, if_false]
      exact hnote m.scheduler rfl
  | refresh =>
    by_cases hrun : m.scheduler.lifecycle = .running
    · simp only [apply, Scheduler.refresh, said, hrun, if_true, List.nil_append]
      exact harm m.scheduler _
    · simp only [apply, Scheduler.refresh, said, hrun, if_false]
      exact hnote m.scheduler rfl
  | stop =>
    rw [stop_scheduler]
    by_cases hrun : m.scheduler.lifecycle = .running
    · by_cases hf : m.facade = .reporter
      · simp only [said, hrun, hf, if_true]
        exact hnote m.scheduler.shutDown rfl
      · simp only [said, hrun, hf, if_true, if_false, List.nil_append]
        rfl
    · simp only [said, hrun, if_false]
      exact hnote m.scheduler rfl
  | release => rfl
  | drop =>
    simp only [apply, Scheduler.drop]
    split <;> rfl
  | sleep hp | drains _ hp | waitsInVain _ hp => exact hp.silent_eq
  | drained => rfl

theorem Takes.isAdHoc_eq (h : Takes m step returned m') (hr : step ≠ .refresh) :
    m'.scheduler.isAdHoc = m.scheduler.isAdHoc := by
  have hnote : ∀ (s : Scheduler) {e : Event}, e.cycle? = none → (s.note e).isAdHoc = s.isAdHoc :=
    fun s e he => AddsNo.isAdHoc_eq (.of_cons rfl (Event.arms_of_cycle? he _))
  cases h with
  | start =>
    simp only [apply, Scheduler.start]
    split
    · exact AddsNo.isAdHoc_eq (.of_cons rfl rfl)
    · exact hnote _ rfl
  | stop =>
    rw [stop_scheduler]
    split_ifs
    · exact hnote m.scheduler.shutDown rfl
    · rfl
    · exact hnote _ rfl
  | refresh => exact absurd rfl hr
  | release | drained => rfl
  | drop =>
    simp only [apply, Scheduler.drop]
    split <;> rfl
  | sleep hp | drains _ hp | waitsInVain _ hp => exact hp.isAdHoc_eq

/-- Two simulations that have taken the same steps, perhaps in other orders. -/
structure Same (built : Except ErrorChain Descriptor) (reply : Reply) (m n : Simulation) :
    Prop where
  facade : n.facade = m.facade
  dropped : n.dropped = m.dropped
  now : n.scheduler.bench.now = m.scheduler.bench.now
  matched : Matches built reply m.scheduler n.scheduler

theorem returned_eq (h : n.scheduler.lifecycle = m.scheduler.lifecycle)
    (hs : ∀ ms, step ≠ .stopped ms) (ht : Takes m step returned m')
    (ht' : Takes n step returned' n') : returned' = returned := by
  cases ht with
  | start => cases ht'; simp only [apply, Scheduler.start, h]; split <;> rfl
  | refresh => cases ht'; simp only [apply, Scheduler.refresh, h]; split <;> rfl
  | stop => cases ht'; simp only [apply, Scheduler.stop, h]; split <;> rfl
  | release | drop | sleep => cases ht'; rfl
  | drained | drains | waitsInVain => exact absurd rfl (hs _)

/-- A call, or a sleep. -/
theorem Same.call (h : Same built reply m n) (hs : ∀ ms, step ≠ .stopped ms)
    (ht : Takes m step returned m') (ht' : Takes n step returned' n') :
    Same built reply m' n' := by
  have hm := h.matched
  have hlines : n'.scheduler.isAdHoc = m'.scheduler.isAdHoc ∧
      ∀ σ : Line, σ.Of m'.scheduler → σ.Agrees id m'.scheduler n'.scheduler := by
    by_cases hr : step = .refresh
    · subst hr
      cases ht
      cases ht'
      exact hm.refresh h.now
    · have had := ht.isAdHoc_eq hr
      refine ⟨by rw [had, ht'.isAdHoc_eq hr, hm.adHoc], fun σ hσ => ?_⟩
      have hσ' : σ.Of m.scheduler := σ.of_eq had.symm hσ
      exact agrees_takes (hm.lines σ hσ') (fun _ _ hab => congrArg (· + 1) hab) hm.regular
        hm.regular' hσ' (σ.of_eq hm.adHoc hσ') h.facade h.now hs ht ht'
  refine ⟨?_, ht.dropped_eq ht' h.dropped, ?_, ?_⟩
  · rw [ht.facade_eq, ht'.facade_eq, h.facade]
  · rw [ht.now_eq hs, ht'.now_eq hs, h.now]
  · refine ⟨hm.regular.moves (ht.moves hm.regular.reachable.sound),
      hm.regular'.moves (ht'.moves hm.regular'.reachable.sound), hlines.1, hlines.2, ?_⟩
    have hsaid : n.said step = m.said step := by
      cases step <;> simp only [said, h.facade, h.now, hm.lifecycle]
    rw [ht.silent_eq, ht'.silent_eq, hsaid, hm.silent]

/-- What is drained by a pass was so at the time of its last entry. -/
theorem stamped_of_drained {target : Nat} {s s' : Scheduler} (h : s.isDrained = false)
    (hp : Passes target s s') (h' : s'.isDrained = true) : s'.Stamped := by
  rcases hp.stamped with rfl | hst
  · rw [h] at h'
    cases h'
  · exact hst

/-- A wait for the end. -/
theorem Same.await {ms : Nat} (h : Same built reply m n) (ht : Takes m (.stopped ms) returned m')
    (ht' : Takes n (.stopped ms) returned' n') :
    Same built reply m' n' ∧ returned' = returned := by
  have hm := h.matched
  have hdrained := hm.isDrained
  have hle := Nat.le_add_right m.scheduler.bench.now ms
  have hle' : n.scheduler.bench.now ≤ m.scheduler.bench.now + ms := h.now ▸ hle
  have hpass : ∀ {s t : Scheduler}, m.scheduler.isDrained = false →
      Passes (m.scheduler.bench.now + ms) m.scheduler s →
      Passes (n.scheduler.bench.now + ms) n.scheduler t → Matches built reply s t ∧
        (s.isDrained = true → t.bench.now = s.bench.now) := by
    intro s t hd hp hp'
    rw [h.now] at hp'
    have hmatch := hm.passes hle hle' hp hp'
    refine ⟨hmatch, fun hs => hmatch.now_eq (stamped_of_drained hd hp hs) ?_⟩
    exact stamped_of_drained (hdrained.trans hd) hp' (hmatch.isDrained.trans hs)
  cases ht with
  | drained hd =>
    cases ht' with
    | drained => exact ⟨h, rfl⟩
    | drains hd' | waitsInVain hd' => rw [hdrained, hd] at hd'; cases hd'
  | drains hd hp hs hlt =>
    cases ht' with
    | drained hd' => rw [hdrained, hd] at hd'; cases hd'
    | drains _ hp' _ _ =>
      obtain ⟨hmatch, hnow⟩ := hpass hd hp hp'
      exact ⟨⟨h.facade, h.dropped, hnow hs, hmatch⟩, rfl⟩
    | waitsInVain _ hp' hnot =>
      obtain ⟨hmatch, hnow⟩ := hpass hd hp hp'
      refine absurd ⟨hmatch.isDrained.trans hs, ?_⟩ hnot
      rw [hnow hs, h.now]
      exact hlt
  | waitsInVain hd hp hnot =>
    cases ht' with
    | drained hd' => rw [hdrained, hd] at hd'; cases hd'
    | drains _ hp' hs' hlt' =>
      obtain ⟨hmatch, hnow⟩ := hpass hd hp hp'
      have hs := hmatch.isDrained.symm.trans hs'
      refine absurd ⟨hs, ?_⟩ hnot
      rw [← hnow hs, ← h.now]
      exact hlt'
    | waitsInVain _ hp' _ =>
      obtain ⟨hmatch, _⟩ := hpass hd hp hp'
      rw [h.now] at hp' ⊢
      refine ⟨⟨h.facade, h.dropped, ?_, hmatch.wait hp.atRest hp'.atRest⟩, rfl⟩
      simp only [wait_bench, Bench.moveTo_now, Nat.max_eq_right (hp.now_le hle),
        Nat.max_eq_right (hp'.now_le hle')]

theorem Same.takes (h : Same built reply m n) (ht : Takes m step returned m')
    (ht' : Takes n step returned' n') : Same built reply m' n' ∧ returned' = returned := by
  by_cases hs : ∃ ms, step = .stopped ms
  · obtain ⟨ms, rfl⟩ := hs
    exact h.await ht ht'
  · have hs : ∀ ms, step ≠ .stopped ms := fun ms heq => hs ⟨ms, heq⟩
    exact ⟨h.call hs ht ht', returned_eq h.matched.lifecycle hs ht ht'⟩

/-- What is reported of a step depends on what has become the same. -/
theorem Same.report (h : Same built reply m n) (h' : Same built reply m' n')
    (hm : m.scheduler.Moves m'.scheduler) (hn : n.scheduler.Moves n'.scheduler)
    (returned : Option Bool) : n.report n' returned = m.report m' returned := by
  have hlive := congrArg List.length h'.matched.cycles
  have hsends := congrArg List.length h.matched.times
  simp only [List.length_map] at hlive hsends
  simp only [Simulation.report, Report.mk.injEq, true_and]
  refine ⟨h'.now, ?_, ?_, ?_, ?_⟩
  · rw [h'.dropped, h'.matched.lifecycle]
  · rw [h'.dropped, h'.facade, hlive]
  · rw [List.map_drop, List.map_drop, h'.matched.times, hsends]
  · exact h.matched.events h'.matched hm.grows.log hn.grows.log

theorem Same.runs {steps : List Step} {reports reports' : List Report}
    (h : Same built reply m n) (hr : Runs m steps reports m') (hr' : Runs n steps reports' n') :
    reports' = reports ∧ Same built reply m' n' := by
  induction hr generalizing n reports' with
  | nil =>
    cases hr'
    exact ⟨rfl, h⟩
  | @cons m m₁ m' step steps returned reports ht _ ih =>
    cases hr' with
    | @cons _ n₁ _ _ _ returned' reports' ht' hr' =>
      obtain ⟨h₁, rfl⟩ := h.takes ht ht'
      obtain ⟨rfl, hend⟩ := ih h₁ hr'
      rw [h.report h₁ (ht.moves h.matched.regular.reachable.sound)
        (ht'.moves h.matched.regular'.reachable.sound)]
      exact ⟨rfl, hend⟩

end Simulation

open Scheduler Simulation

/-- **The order of simultaneous polls does not matter.** With one reply to all sends and one answer
to all calls for a descriptor, two runs of the same steps report the same, and in the end the same
cycles are live, the same number is to be given next, and each cycle has the same history,
whatever the orders in which the cycles were polled that were ready at one time. -/
theorem order_of_polls_is_irrelevant {settings : Settings} {c : Cadence} {facade : Facade}
    {built : Except ErrorChain Descriptor} {reply : Reply} {steps : List Step}
    {reports reports' : List Report} {m m' : Simulation}
    (word : settings.maxTries < UInt32.size) (accepted : settings.cadence = .ok c)
    (run : Runs (constant facade c built reply) steps reports m)
    (run' : Runs (constant facade c built reply) steps reports' m') :
    reports' = reports ∧
      m'.scheduler.live.map (·.attempt.cycle) = m.scheduler.live.map (·.attempt.cycle) ∧
      m'.scheduler.nextCycle = m.scheduler.nextCycle ∧
      ∀ cycle, m'.scheduler.history cycle = m.scheduler.history cycle := by
  have hregular := regular_constant facade built reply word accepted
  have hno : ∀ σ : Line, σ.Of (constant facade c built reply).scheduler →
      σ.Agrees id (constant facade c built reply).scheduler
        (constant facade c built reply).scheduler := by
    intro σ hσ
    cases σ with
    | chain => exact agrees_self id rfl
    | adHoc i => cases hσ
  have h : Same built reply (constant facade c built reply) (constant facade c built reply) :=
    ⟨rfl, rfl, rfl, hregular, hregular, rfl, hno, rfl⟩
  obtain ⟨hreports, hend⟩ := h.runs run run'
  refine ⟨hreports, hend.matched.cycles, hend.matched.nextCycle, fun cycle => ?_⟩
  exact congrArg List.reverse (hend.matched.sameOfEach (some cycle))

namespace Simulation

/-- Two cycles armed at one time, of which the second one is polled first. -/
def lastFirst : Scheduler :=
  ((heldBack.run [.start, .refresh]).2.scheduler.pollAt 1 0).pollAt 0 0

theorem passes_lastFirst :
    Passes 0 (heldBack.run [.start, .refresh]).2.scheduler lastFirst := by
  let s := (heldBack.run [.start, .refresh]).2.scheduler
  have first : Advances 0 s (s.pollAt 1 0) :=
    .poll (l := [s.live[0]]) (c := s.live[1]) (r := []) rfl (by decide) (by decide)
  have second : Advances 0 (s.pollAt 1 0) lastFirst :=
    .poll (l := []) (c := (s.pollAt 1 0).live[0]) (r := [(s.pollAt 1 0).live[1]]) rfl (by decide)
      (by decide)
  exact .step first (.step second (.rest (by decide)))

/-- Its log tells of the second cycle first, and of each cycle what it does in the other order. -/
theorem lastFirst_is_the_same :
    lastFirst.bench.log ≠ (heldBack.run [.start, .refresh, .sleep 0]).2.scheduler.bench.log ∧
      ∀ cycle, lastFirst.history cycle =
        (heldBack.run [.start, .refresh, .sleep 0]).2.scheduler.history cycle := by
  have word : (⟨10, 100, 2, 50⟩ : Settings).maxTries < UInt32.size := by decide
  have accepted : Settings.cadence ⟨10, 100, 2, 50⟩ = .ok brisk := rfl
  have sound : heldBack.scheduler.Sound :=
    (regular_constant .scheduler _ _ word accepted).reachable.sound
  have run' : Runs heldBack [.start, .refresh, .sleep 0] _
      { (heldBack.run [.start, .refresh]).2 with scheduler := lastFirst.wait 0 } :=
    .cons .start (.cons .refresh (.cons (.sleep passes_lastFirst) .nil))
  refine ⟨by decide, ?_⟩
  exact (order_of_polls_is_irrelevant word accepted (runs_run sound _) run').2.2.2

end Simulation
end Heartbeat
