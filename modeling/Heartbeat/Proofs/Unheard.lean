import Heartbeat.Proofs.Fates

/-!
# Heartbeat.Proofs.Unheard

Answers that come too late have no effect: two runs whose collectors differ in nothing else are the
same.

* `Twins`        — two schedulers that differ in answers and in replies to come only.
* `Deaf`         — where the replies differ, neither has heard an answer.
* `Twins.poll`   — twins do the same in a poll, in a passage of time, and in a step of a run.
* `late_replies_have_no_effect` — so no report of a run depends on them.
-/

namespace Heartbeat

/-- What a send is apart from its answer. -/
def Sent.head (x : Sent) : Nat × Descriptor := (x.time, x.descriptor)

/-- Two transports whose sends are the same but for the answers, and these too where the replies
are the same. -/
structure Transport.Varies (t u : Transport) : Prop where
  heads : u.sends.map Sent.head = t.sends.map Sent.head
  sends : ∀ n, u.script.item n = t.script.item n → u.sends[n]? = t.sends[n]?

namespace Transport.Varies

variable {t u : Transport}

theorem length_eq (h : t.Varies u) : u.sends.length = t.sends.length := by
  simpa using congrArg List.length h.heads

theorem send (h : t.Varies u) (ht : t.Follows) (hu : u.Follows) (now : Nat) (d : Descriptor) :
    (t.send now d).Varies (u.send now d) where
  heads := by simp [Transport.send, Sent.head, h.heads]
  sends n hn := by
    have hn : u.script.item n = t.script.item n := hn
    have hsame := h.sends n hn
    simp only [Transport.send, List.getElem?_append, List.getElem?_singleton, h.length_eq, hsame]
    split
    · rfl
    · split
      · -- the reply to the new send is the one after as many as there are sends
        obtain rfl : n = t.sends.length := by omega
        have hnext : u.script.next = t.script.next := by
          rw [Script.next_eq_item, Script.next_eq_item, hu.taken, ht.taken, h.length_eq, hn]
        rw [hnext]
      · rfl

theorem heads_release (t : Transport) (now : Nat) (r : Reply) :
    (t.release now r).sends.map Sent.head = t.sends.map Sent.head := by
  refine List.ext_getElem? fun n => ?_
  simp only [List.getElem?_map]
  cases hx : t.sends[n]? with
  | none =>
    have hlen := List.getElem?_eq_none_iff.mp hx
    rw [List.getElem?_eq_none (by rw [sends_length_release]; exact hlen)]
  | some x =>
    obtain ⟨y, hy, ht, hd, _⟩ := KeepsSends.release now t r n x hx
    rw [hy]
    simp [Sent.head, ht, hd]

theorem release (h : t.Varies u) (ht : t.Follows) (hu : u.Follows) (ht' : t.Holding)
    (hu' : u.Holding) (now : Nat) (r : Reply) : (t.release now r).Varies (u.release now r) where
  heads := by rw [heads_release, heads_release, h.heads]
  sends n hn := by
    rw [script_release, script_release] at hn
    have hsame := h.sends n hn
    cases r with
    | hold => exact hsame
    | after delay answer =>
      cases hx : t.sends[n]? with
      | none =>
        have hlen := List.getElem?_eq_none_iff.mp hx
        have hlen' : u.sends.length ≤ n := h.length_eq ▸ hlen
        rw [List.getElem?_eq_none (by rw [sends_length_release]; exact hlen'),
          List.getElem?_eq_none (by rw [sends_length_release]; exact hlen)]
      | some x =>
        rw [release_sends ht ht' now delay answer hx,
          release_sends hu hu' now delay answer (hsame.trans hx), hn]

end Transport.Varies

namespace Scheduler

variable {s s' t t' : Scheduler} {l r : List LiveCycle} {c : LiveCycle}
  {deadline late send target time : Nat}

/-- A scheduler with another transport. -/
def via (s : Scheduler) (u : Transport) : Scheduler :=
  { s with bench := { s.bench with transport := u } }

/-- Two schedulers that differ in answers and in replies to come only. -/
structure Twins (s t : Scheduler) : Prop where
  rest : t = s.via t.bench.transport
  varies : s.bench.transport.Varies t.bench.transport

/-- Where the replies differ, neither has heard an answer. -/
def Deaf (s t : Scheduler) : Prop :=
  ∀ n, t.bench.transport.script.item n = s.bench.transport.script.item n ∨
    s.heard? n = none ∧ t.heard? n = none

theorem Deaf.before (h : Deaf s' t') (hs : s.Moves s') (ht : t.Moves t') : Deaf s t := by
  have keep : ∀ {s s' : Scheduler} {n : Nat}, s.Moves s' → s'.heard? n = none →
      s.heard? n = none := by
    intro s s' n hm hn
    cases ha : s.heard? n with
    | none => rfl
    | some a => exact (hm.heard?_some ha).symm.trans hn
  intro n
  rcases h n with hitem | ⟨hn, hn'⟩
  · rw [ht.grows.script, hs.grows.script] at hitem
    exact .inl hitem
  · exact .inr ⟨keep hs hn, keep ht hn'⟩

theorem Deaf.congr (h : Deaf s' t') (hs : s'.bench.transport = s.bench.transport)
    (hsc : s'.cadence = s.cadence) (ht : t'.bench.transport = t.bench.transport)
    (htc : t'.cadence = t.cadence) : Deaf s t := by
  intro n
  have := h n
  rwa [heard?, heard?, hs, hsc, ht, htc] at this

theorem twins_via {u : Transport} (h : s.bench.transport.Varies u) : Twins s (s.via u) :=
  ⟨rfl, h⟩

namespace Twins

theorem live_eq (h : Twins s t) : t.live = s.live := by rw [h.rest]; rfl

theorem cadence_eq (h : Twins s t) : t.cadence = s.cadence := by rw [h.rest]; rfl

/-! ## Twins wait alike -/

/-- A tick that waits for an answer that nobody hears waits as long. -/
theorem ending_eq (h : Twins s t) (hd : Deaf s t) (hs : s.Attends) (ht : t.Attends)
    (hc : c ∈ s.live) (hp : c.phase = .waiting deadline late send) :
    t.ending c deadline late send = s.ending c deadline late send := by
  rcases hd send with hitem | ⟨hn, hn'⟩
  · exact ending_of_sends (h.varies.sends send hitem)
  · obtain ⟨x, hx, htime, hends⟩ := hs.ending_eq hc hp
    obtain ⟨y, hy, htime', hends'⟩ := ht.ending_eq (h.live_eq ▸ hc) hp
    rw [heard?, hx, Option.bind_some] at hn
    rw [heard?, hy, Option.bind_some] at hn'
    rw [hends, hends', Sent.ends, Sent.ends, hn, hn', h.cadence_eq, htime, htime']

theorem wakeTime_eq (h : Twins s t) (hd : Deaf s t) (hs : s.Attends) (ht : t.Attends)
    (hc : c ∈ s.live) : t.wakeTime c = s.wakeTime c := by
  cases hp : c.phase with
  | idle deadline =>
    rw [h.rest]
    simp only [wakeTime, hp]
    rfl
  | waiting deadline late send =>
    rw [wakeTime_waiting hp, wakeTime_waiting hp, h.ending_eq hd hs ht hc hp]

end Twins

theorem leastAt_congr {α : Type} {f g : α → Nat} {xs : List α} (h : ∀ x ∈ xs, f x = g x) :
    leastAt f xs = leastAt g xs := by
  induction xs with
  | nil => rfl
  | cons x xs ih =>
    rw [List.forall_mem_cons] at h
    simp only [leastAt, ih h.2, h.1]

namespace Twins

theorem nextReady_eq (h : Twins s t) (hd : Deaf s t) (hs : s.Attends) (ht : t.Attends)
    (target : Nat) : t.nextReady target = s.nextReady target := by
  rw [nextReady, nextReady, h.live_eq, leastAt_congr fun c hc => h.wakeTime_eq hd hs ht hc]

/-! ## Twins do the same -/

theorem turn {u : Transport} (h : s.bench.transport.Varies u) (hf : s.bench.transport.Follows)
    (hu : u.Follows)
    (hend : ∀ deadline late send, c.phase = .waiting deadline late send →
      (s.via u).ending c deadline late send = s.ending c deadline late send)
    (ht : Turn s l c r s') :
    ∃ u', Turn (s.via u) l c r (s'.via u') ∧ s'.bench.transport.Varies u' := by
  have same : ∀ {deadline late send : Nat} {o : Outcome},
      c.phase = .waiting deadline late send → (s.ending c deadline late send).2 = o →
      ((s.via u).ending c deadline late send).2 = o := fun hp ho =>
    (congrArg Prod.snd (hend _ _ _ hp)).trans ho
  cases ht with
  | cancelled hp hs => exact ⟨u, .cancelled hp hs, h⟩
  | exhausted hp hs ha => exact ⟨u, .exhausted hp hs ha, h⟩
  | unsent hp hs ha hn => exact ⟨u, .unsent hp hs ha hn, h⟩
  | sent hp hs ha hn =>
    have hlen : (s.via u).bench.transport.sends.length = s.bench.transport.sends.length :=
      h.length_eq
    have hturn := Turn.sent (s := s.via u) (l := l) (r := r) hp hs ha hn
    rw [hlen] at hturn
    exact ⟨_, hturn, h.send hf hu _ _⟩
  | retried hp ho hfail => exact ⟨u, .retried hp (same hp ho) hfail, h⟩
  | delivered hp ho hk => exact ⟨u, .delivered hp (same hp ho) hk, h⟩
  | rearmed hp ho hk hs => exact ⟨u, .rearmed hp (same hp ho) hk hs, h⟩
  | notRearmed hp ho hk hs => exact ⟨u, .notRearmed hp (same hp ho) hk hs, h⟩

theorem wait (h : Twins s t) (time : Nat) : Twins (s.wait time) (t.wait time) where
  rest := congrArg (Scheduler.wait · time) h.rest
  varies := h.varies

theorem poll (h : Twins s t) (hd : Deaf s t) (hs : s.Attends) (ht : t.Attends)
    (hl : s.live = l ++ c :: r) : Twins (s.poll l.length) (t.poll l.length) := by
  have hend : ∀ deadline late send, c.phase = .waiting deadline late send →
      (s.via t.bench.transport).ending c deadline late send = s.ending c deadline late send := by
    intro deadline late send hp
    rw [← h.rest]
    exact h.ending_eq hd hs ht (by simp [hl]) hp
  obtain ⟨u', hturn, hvaries⟩ := turn h.varies hs.reachable.follows.transport
    ht.reachable.follows.transport hend (turn_of_poll hl)
  have heq : t.poll l.length = (s.poll l.length).via u' := by
    rw [hturn.eq_poll hl, ← h.rest]
  rw [heq]
  exact twins_via hvaries

/-- Polled till something halts both, or both have nothing to do, they are twins still. -/
theorem runFor {halt : Scheduler → Bool} (hh : ∀ s t, Twins s t → halt t = halt s) (fuel : Nat)
    (h : Twins s t) (hs : s.Attends) (ht : t.Attends) (hn : s.bench.now ≤ target)
    (hf : s.work target ≤ fuel)
    (hd : Deaf (Scheduler.runFor halt target fuel s) (Scheduler.runFor halt target fuel t)) :
    Twins (Scheduler.runFor halt target fuel s) (Scheduler.runFor halt target fuel t) := by
  induction fuel generalizing s t with
  | zero => exact h
  | succ fuel ih =>
    have hn' : t.bench.now ≤ target := by rw [h.rest]; exact hn
    have hf' : t.work target ≤ fuel + 1 := by rw [h.rest]; exact hf
    have hd₀ : Deaf s t := hd.before (runFor_spec halt _ hs.reachable.sound hn hf).1
      (runFor_spec halt _ ht.reachable.sound hn' hf').1
    simp only [Scheduler.runFor, hh s t h, h.nextReady_eq hd₀ hs ht] at hd ⊢
    split
    · exact h
    · rename_i hhalt
      rw [if_neg hhalt, if_neg hhalt] at hd
      cases hr : s.nextReady target with
      | none => exact h
      | some x =>
        obtain ⟨i, time⟩ := x
        have hr' : t.nextReady target = some (i, time) := by rw [h.nextReady_eq hd₀ hs ht, hr]
        rw [hr] at hd
        obtain ⟨hm, hle, hlt⟩ := pollAt_spec hs.reachable.sound hn hr
        refine ih ?_ (hs.advances (advances_of_nextReady hr))
          (ht.advances (advances_of_nextReady hr')) hle (by omega) hd
        simp only [nextReady, Option.filter_eq_some_iff] at hr hr'
        obtain ⟨l, c, r, hl, rfl, rfl, hall⟩ := leastAt_some hr.1
        have hall' : ∀ x ∈ t.live, s.wakeTime c ≤ t.wakeTime x := by
          intro x hx
          rw [h.live_eq] at hx
          rw [h.wakeTime_eq hd₀ hs ht hx]
          exact hall x hx
        exact (h.wait _).poll hd₀ (hs.wait hall) (ht.wait hall') hl

theorem isDrained_eq (h : Twins s t) : t.isDrained = s.isDrained := by
  rw [h.rest]
  rfl

theorem now_eq (h : Twins s t) : t.bench.now = s.bench.now := by rw [h.rest]; rfl

theorem runUntil {halt : Scheduler → Bool} (hh : ∀ s t, Twins s t → halt t = halt s)
    (h : Twins s t) (hs : s.Attends) (ht : t.Attends) (hn : s.bench.now ≤ target)
    (hd : Deaf (s.runUntil halt target) (t.runUntil halt target)) :
    Twins (s.runUntil halt target) (t.runUntil halt target) := by
  have hwork : t.work target = s.work target := by rw [h.rest]; rfl
  rw [Scheduler.runUntil, Scheduler.runUntil, hwork] at hd ⊢
  exact h.runFor hh _ hs ht hn (Nat.le_refl _) hd

theorem sleep (h : Twins s t) (hs : s.Attends) (ht : t.Attends) (ms : Nat)
    (hd : Deaf (s.sleep ms) (t.sleep ms)) : Twins (s.sleep ms) (t.sleep ms) := by
  simp only [Scheduler.sleep, h.now_eq] at hd ⊢
  exact (h.runUntil (fun _ _ _ => rfl) hs ht (Nat.le_add_right _ _) hd).wait _

end Twins

/-- What a wait for the end comes to that is not over at once. -/
theorem awaitDrained_eq (h : s.isDrained = false) (ms : Nat) : s.awaitDrained ms =
    if (s.runUntil isDrained (s.bench.now + ms)).isDrained = true ∧
        (s.runUntil isDrained (s.bench.now + ms)).bench.now < s.bench.now + ms then
      (true, s.runUntil isDrained (s.bench.now + ms))
    else (false, (s.runUntil isDrained (s.bench.now + ms)).wait (s.bench.now + ms)) := by
  rw [awaitDrained, h]
  rfl

namespace Twins

theorem awaitDrained (h : Twins s t) (hs : s.Attends) (ht : t.Attends) (ms : Nat)
    (hd : Deaf (s.awaitDrained ms).2 (t.awaitDrained ms).2) :
    (t.awaitDrained ms).1 = (s.awaitDrained ms).1 ∧
      Twins (s.awaitDrained ms).2 (t.awaitDrained ms).2 := by
  cases hdrained : s.isDrained with
  | true => simpa [Scheduler.awaitDrained, h.isDrained_eq, hdrained] using h
  | false =>
    rw [awaitDrained_eq hdrained, awaitDrained_eq (h.isDrained_eq.trans hdrained), h.now_eq] at hd ⊢
    -- the clock alone may still be moved on
    have hpolled := h.runUntil (fun _ _ h => h.isDrained_eq) hs ht (Nat.le_add_right _ ms)
      (hd.congr (by split <;> rfl) (by split <;> rfl) (by split <;> rfl) (by split <;> rfl))
    rw [hpolled.isDrained_eq, hpolled.now_eq]
    split
    · exact ⟨rfl, hpolled⟩
    · exact ⟨rfl, hpolled.wait _⟩

theorem release (h : Twins s t) (hs : Reachable s) (ht : Reachable t) (r : Reply) :
    Twins (s.release r) (t.release r) where
  rest := by
    rw [h.rest]
    rfl
  varies := by
    change (s.bench.transport.release s.bench.now r).Varies
      (t.bench.transport.release t.bench.now r)
    rw [h.now_eq]
    exact h.varies.release hs.follows.transport ht.follows.transport hs.holding ht.holding _ r

end Twins
end Scheduler

open Scheduler

/-! ## Twin runs -/

namespace Simulation

variable {m n : Simulation} {step : Step}

/-- Two simulations that differ in answers and in replies to come only. -/
structure Twins (m n : Simulation) : Prop where
  facade : n.facade = m.facade
  dropped : n.dropped = m.dropped
  scheduler : m.scheduler.Twins n.scheduler

/-- A call does not look at answers. -/
theorem apply_via (m : Simulation) (u : Transport) (hcall : step.isCall = true) :
    ({ m with scheduler := m.scheduler.via u } : Simulation).apply step =
      ((m.apply step).1,
        { (m.apply step).2 with scheduler := (m.apply step).2.scheduler.via u }) := by
  obtain ⟨facade, ⟨cadence, bench, lifecycle, nextCycle, live⟩, dropped⟩ := m
  cases step with
  | start | refresh | drop => cases lifecycle <;> rfl
  | stop => cases lifecycle <;> cases facade <;> rfl
  | sleep | stopped | release => cases hcall

theorem Twins.eq_via (h : Twins m n) :
    n = { m with scheduler := m.scheduler.via n.scheduler.bench.transport } := by
  obtain ⟨facade, s, dropped⟩ := n
  obtain ⟨hf, hd, hs⟩ := h
  cases hf
  cases hd
  exact congrArg (Simulation.mk _ · _) hs.rest

/-- Twins answer a step alike. -/
theorem Twins.apply (h : Twins m n) (hm : m.scheduler.Attends) (hn : n.scheduler.Attends)
    (hd : Deaf (m.apply step).2.scheduler (n.apply step).2.scheduler) :
    (n.apply step).1 = (m.apply step).1 ∧ Twins (m.apply step).2 (n.apply step).2 := by
  have called (hcall : step.isCall = true) :
      (n.apply step).1 = (m.apply step).1 ∧ Twins (m.apply step).2 (n.apply step).2 := by
    have htr := ((takes_apply hm.reachable.sound step).call hm.reachable.sound hcall).2.1
    have heq := apply_via m n.scheduler.bench.transport hcall
    rw [← h.eq_via] at heq
    rw [heq]
    exact ⟨rfl, rfl, rfl, twins_via (htr ▸ h.scheduler.varies)⟩
  cases step with
  | start | stop | refresh | drop => exact called rfl
  | release r =>
    exact ⟨rfl, h.facade, h.dropped, h.scheduler.release hm.reachable hn.reachable r⟩
  | sleep ms => exact ⟨rfl, h.facade, h.dropped, h.scheduler.sleep hm hn ms hd⟩
  | stopped ms =>
    obtain ⟨hret, htwins⟩ := h.scheduler.awaitDrained hm hn ms hd
    exact ⟨congrArg some hret, h.facade, h.dropped, htwins⟩

/-- They report alike. -/
theorem Twins.report {m' n' : Simulation} (h : Twins m n) (h' : Twins m' n')
    (returned : Option Bool) : n.report n' returned = m.report m' returned := by
  have htimes : ∀ k, (n'.scheduler.bench.transport.sends.drop k).map (·.time) =
      (m'.scheduler.bench.transport.sends.drop k).map (·.time) := by
    intro k
    have hheads := congrArg (fun l => (l.drop k).map Prod.fst) h'.scheduler.varies.heads
    simpa [List.map_drop, Sent.head, Function.comp_def] using hheads
  rw [Simulation.report, Simulation.report, htimes, h.scheduler.varies.length_eq, h'.eq_via,
    h.eq_via]
  rfl

theorem Twins.run {steps : List Step} (h : Twins m n) (hm : m.scheduler.Attends)
    (hm' : m.scheduler.Punctual) (hn : n.scheduler.Attends) (hn' : n.scheduler.Punctual)
    (hd : Deaf (m.run steps).2.scheduler (n.run steps).2.scheduler) :
    (n.run steps).1 = (m.run steps).1 ∧ Twins (m.run steps).2 (n.run steps).2 := by
  induction steps generalizing m n with
  | nil => exact ⟨rfl, h⟩
  | cons step steps ih =>
    obtain ⟨hma, hma'⟩ := (takes_apply hm.reachable.sound step).attends hm hm'
    obtain ⟨hna, hna'⟩ := (takes_apply hn.reachable.sound step).attends hn hn'
    have hd' : Deaf (m.apply step).2.scheduler (n.apply step).2.scheduler :=
      hd.before (moves_run hma.reachable.sound steps) (moves_run hna.reachable.sound steps)
    obtain ⟨hret, htwins⟩ := h.apply hm hn hd'
    obtain ⟨hreports, hend⟩ := ih htwins hma hma' hna hna' hd
    refine ⟨?_, hend⟩
    have hreport := h.report htwins (m.apply step).1
    simp only [Simulation.run, Simulation.step, hret, hreport]
    exact congrArg _ hreports

/-- A simulation just built. -/
def built (facade : Facade) (c : Cadence) (factory : Script (Except ErrorChain Descriptor))
    (script : Script Reply) : Simulation :=
  { facade, scheduler := fresh c factory script }

end Simulation

/-- A tick heeds the answer to its own send only, and only in time. -/
structure OwnAnswersOnly (s : Scheduler) : Prop where
  /-- A send whose answer is not heard is awaited still, or its tick has timed out. -/
  unheard : ∀ send x, s.bench.transport.sends[send]? = some x → s.heard? send = none →
    (∃ c ∈ s.live, ∃ deadline late, c.phase = .waiting deadline late send) ∨
      ∃ a : Attempt, ∃ later,
        s.SentBy send a.cycle (⟨x.time + s.cadence.responseTimeout, a.verdict .timeout⟩ :: later)
  /-- A delivery tells of a success that was heard by the tick that made the send. -/
  credited : ∀ e ∈ s.bench.log, e.event.isDelivery = true → s.Credited e
  /-- A slow refresh is armed as a delivery is told of, and never else. -/
  rearming : ∀ time id delay older,
    ⟨time, .armed id .slowRefresh delay⟩ :: older <:+ s.bench.log →
      ∃ cycle kind tick, ∃ older', older = ⟨time, .delivered cycle kind tick⟩ :: older'

theorem Scheduler.Fates.ownAnswersOnly {s : Scheduler} (h : s.Fates) (hr : Reachable s) :
    OwnAnswersOnly s where
  unheard send x hx hnone := by
    cases h.each send x hx with
    | awaited hc hp => exact .inl ⟨_, hc, _, _, hp⟩
    | @ended a time o later hends _ hsent =>
      rw [heard?, hx, Option.bind_some] at hnone
      rw [Sent.ends, hnone] at hends
      cases hends
      exact .inr ⟨a, later, hsent⟩
  credited := h.credited
  rearming _ _ _ _ harm := hr.rearming harm

open Simulation

/-- **Late replies have no effect.** Two runs of the same steps, whose collectors treat every send
in the same way, or in ways of which neither gives an answer in time, report the same and come to
the same but for those answers. And in each a tick heeds the answer to its own send only: what comes
late completes no cycle and arms no refresh. -/
theorem late_replies_have_no_effect {settings : Settings} {c : Cadence} {facade : Facade}
    {factory : Script (Except ErrorChain Descriptor)} {script script' : Script Reply}
    {steps : List Step} (word : settings.maxTries < UInt32.size)
    (accepted : settings.cadence = .ok c) (uncalled : factory.taken = 0)
    (unasked : script.taken = 0) (unasked' : script'.taken = 0)
    (late : Deaf ((built facade c factory script).run steps).2.scheduler
      ((built facade c factory script').run steps).2.scheduler) :
    ((built facade c factory script').run steps).1 =
        ((built facade c factory script).run steps).1 ∧
      Simulation.Twins ((built facade c factory script).run steps).2
        ((built facade c factory script').run steps).2 ∧
      OwnAnswersOnly ((built facade c factory script).run steps).2.scheduler := by
  have attends : ∀ {script : Script Reply}, script.taken = 0 → (fresh c factory script).Attends :=
    fun unasked => ⟨.fresh word accepted uncalled unasked, fun _ hc => (by cases hc)⟩
  have punctual : ∀ {script : Script Reply}, (fresh c factory script).Punctual :=
    fun _ hc => by cases hc
  have fates : (fresh c factory script).Fates :=
    ⟨fun _ hc => (by cases hc), fun _ _ hx => (by cases hx), fun _ he => (by cases he)⟩
  have twins : Simulation.Twins (built facade c factory script) (built facade c factory script') :=
    ⟨rfl, rfl, rfl, rfl, fun _ _ => rfl⟩
  have hrun := runs_run (attends unasked).reachable.sound (m := built facade c factory script) steps
  obtain ⟨hfates, hattends⟩ := hrun.fates fates (attends unasked) punctual
  obtain ⟨hreports, hend⟩ :=
    twins.run (attends unasked) punctual (attends unasked') punctual late
  exact ⟨hreports, hend, hfates.ownAnswersOnly hattends.reachable⟩

namespace Simulation

/-- A run of 170 ms in which what is held back is released after 70 ms. -/
def tardyRun (script : Script Reply) : List Report × Simulation :=
  (built .scheduler brisk
    ⟨[], .ok ⟨"a-1", "app", "host", "10.0.0.1", 1, "1.0", 0, [], false⟩, 0⟩ script).run
    [.start, .sleep 70, .release .ack, .sleep 100]

/-- The first request is held back. -/
def holdsFirst : Script Reply := ⟨[.hold 0], .ack, 0⟩

/-- The first request is acknowledged after 60 ms, when 50 have been waited. -/
def lateFirst : Script Reply :=
  ⟨[.after 60 (.body (utf8 (Acknowledgement.encode ⟨true, none⟩)))], .ack, 0⟩

/-- One first answer is released after 70 ms and one comes after 60; both runs are the same. -/
theorem lateFirst_has_no_effect :
    ((tardyRun holdsFirst).2.scheduler.bench.transport.settlement? 0).map (·.time) = some 70 ∧
      ((tardyRun lateFirst).2.scheduler.bench.transport.settlement? 0).map (·.time) = some 60 ∧
      Deaf (tardyRun holdsFirst).2.scheduler (tardyRun lateFirst).2.scheduler ∧
      (tardyRun lateFirst).1 = (tardyRun holdsFirst).1 := by
  have word : (⟨10, 100, 2, 50⟩ : Settings).maxTries < UInt32.size := by decide
  have accepted : Settings.cadence ⟨10, 100, 2, 50⟩ = .ok brisk := rfl
  have replies : ∀ script : Script Reply, script.taken = 0 →
      (tardyRun script).2.scheduler.bench.transport.script.item = script.item := fun _ unasked =>
    (moves_run (Reachable.fresh word accepted rfl unasked).sound _).grows.script
  have late : Deaf (tardyRun holdsFirst).2.scheduler (tardyRun lateFirst).2.scheduler := by
    intro n
    rw [replies holdsFirst rfl, replies lateFirst rfl]
    cases n with
    | zero => exact .inr (by decide)
    | succ n => exact .inl rfl
  exact ⟨by decide, by decide, late,
    (late_replies_have_no_effect word accepted rfl rfl rfl late).1⟩

end Simulation
end Heartbeat
