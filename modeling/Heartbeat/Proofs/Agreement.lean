import Heartbeat.Proofs.Held
import Heartbeat.Proofs.Strand

/-!
# Heartbeat.Proofs.Agreement

Strands of two schedulers that are at the same point stay so, whatever the other cycles do.

* `Agree`          — the strands are at the same point; their cycles may be numbered otherwise, and
  time may have passed in one scheduler and not yet in the other.
* `Agree.beside`   — what happens beside the strands changes nothing.
* `Agree.turn`     — polls of both strands at one time keep them in agreement.
* `Agree.passes`   — so they agree when all that is ready by a time has been polled.
* `Agree.turned`, `Agree.release` — calls made on both schedulers keep them in agreement.
-/

namespace Heartbeat

/-- The same phase, with the same answer known if a send is under way. -/
inductive SamePhase (xs ys : List Sent) : Phase → Phase → Prop where
  | idle {deadline : Nat} : SamePhase xs ys (.idle deadline) (.idle deadline)
  | waiting {deadline late m n : Nat} {x : Sent} :
      xs[m]? = some x → ys[n]? = some x →
      SamePhase xs ys (.waiting deadline late m) (.waiting deadline late n)

theorem SamePhase.symm {xs ys : List Sent} {p q : Phase} (h : SamePhase xs ys p q) :
    SamePhase ys xs q p := by
  cases h with
  | idle => exact .idle
  | waiting hx hy => exact .waiting hy hx

theorem SamePhase.append {xs ys : List Sent} {p q : Phase} (h : SamePhase xs ys p q)
    (more more' : List Sent) : SamePhase (xs ++ more) (ys ++ more') p q := by
  cases h with
  | idle => exact .idle
  | waiting hx hy =>
    exact .waiting (List.getElem?_append_left (List.getElem?_eq_some_iff.mp hx).1 ▸ hx)
      (List.getElem?_append_left (List.getElem?_eq_some_iff.mp hy).1 ▸ hy)

namespace Scheduler

/-- Two cycles are at the same point, but for their numbers. -/
structure Alike (name : Nat → Nat) (s t : Scheduler) (c d : LiveCycle) : Prop where
  named : name d.attempt.cycle = name c.attempt.cycle
  attempt : { d.attempt with cycle := c.attempt.cycle } = c.attempt
  period : d.period = c.period
  onSuccess : d.onSuccess = c.onSuccess
  phase : SamePhase s.bench.transport.sends t.bench.transport.sends c.phase d.phase

/-- Nothing is live, or two cycles that are alike and will be polled at the same time next. -/
inductive Matched (name : Nat → Nat) (s t : Scheduler) :
    List LiveCycle → List LiveCycle → Prop where
  | none : Matched name s t [] []
  | one {c d : LiveCycle} :
      Alike name s t c d →
      max t.bench.now (t.wakeTime d) = max s.bench.now (s.wakeTime c) →
      Matched name s t [c] [d]

structure Agree (name : Nat → Nat) (own own' : Nat → Bool) (s t : Scheduler) : Prop where
  cadence : t.cadence = s.cadence
  lifecycle : t.lifecycle = s.lifecycle
  /-- Whether the cycles to come are of the strand. -/
  coming : own' t.nextCycle = own s.nextCycle
  named : own s.nextCycle = true → name t.nextCycle = name s.nextCycle
  trail : (t.trail own').map (Entry.renamed name) = (s.trail own).map (Entry.renamed name)
  live : Matched name s t (s.strand own) (t.strand own')

section Agreement

variable {name : Nat → Nat} {own own' : Nat → Bool} {s s' t t' : Scheduler} {c d : LiveCycle}

theorem Alike.symm (h : Alike name s t c d) : Alike name t s d c where
  named := h.named.symm
  attempt := by
    rw [← h.attempt]
  period := h.period.symm
  onSuccess := h.onSuccess.symm
  phase := h.phase.symm

theorem Alike.eq_attempt (h : Alike name s t c d) :
    d.attempt = { c.attempt with cycle := d.attempt.cycle } := by
  rw [← h.attempt]

theorem Alike.settlement? {deadline late m n : Nat} (h : Alike name s t c d)
    (hc : c.phase = .waiting deadline late m) (hd : d.phase = .waiting deadline late n) :
    t.bench.transport.settlement? n = s.bench.transport.settlement? m := by
  have hp := h.phase
  rw [hc, hd] at hp
  cases hp with
  | waiting hx hy => rw [Transport.settlement?, Transport.settlement?, hx, hy]

/-- Where one of two cycles that are alike waits, the other one does. -/
theorem Alike.waiting {deadline late m : Nat} (h : Alike name s t c d)
    (hc : c.phase = .waiting deadline late m) :
    ∃ n, d.phase = .waiting deadline late n ∧
      t.ending d deadline late n = s.ending c deadline late m := by
  have hp := h.phase
  rw [hc] at hp
  generalize hd : d.phase = phase at hp
  cases hp with
  | @waiting _ _ _ n x hx hy =>
    refine ⟨n, rfl, ?_⟩
    rw [ending, ending, h.eq_attempt, Bench.awaits, Bench.awaits, h.settlement? hc hd]

theorem Alike.idle {deadline : Nat} (h : Alike name s t c d) (hc : c.phase = .idle deadline) :
    d.phase = .idle deadline := by
  have hp := h.phase
  rw [hc] at hp
  generalize d.phase = phase at hp
  cases hp
  rfl

theorem Alike.wakeTime (h : Alike name s t c d) (hs : t.lifecycle = s.lifecycle) :
    t.wakeTime d = s.wakeTime c := by
  cases hc : c.phase with
  | idle deadline =>
    simp [Scheduler.wakeTime, hc, h.idle hc, isStopped, hs]
  | waiting deadline late send =>
    obtain ⟨n, hd, he⟩ := h.waiting hc
    rw [wakeTime_waiting hd, wakeTime_waiting hc, he]

/-- More sends change nothing for cycles that are alike. -/
theorem Alike.append {more more' : List Sent} (h : Alike name s t c d)
    (hs : s'.bench.transport.sends = s.bench.transport.sends ++ more)
    (ht : t'.bench.transport.sends = t.bench.transport.sends ++ more') :
    Alike name s' t' c d :=
  { h with phase := by rw [hs, ht]; exact h.phase.append _ _ }

theorem Matched.symm {xs ys : List LiveCycle} (h : Matched name s t xs ys) :
    Matched name t s ys xs := by
  cases h with
  | none => exact .none
  | one ha hc => exact .one ha.symm hc.symm

theorem Agree.symm (h : Agree name own own' s t) : Agree name own' own t s where
  cadence := h.cadence.symm
  lifecycle := h.lifecycle.symm
  coming := h.coming.symm
  named ho := (h.named (h.coming ▸ ho)).symm
  trail := h.trail.symm
  live := h.live.symm

/-- What happens beside both strands does not matter. -/
theorem Agree.beside {own₁ own₁' : Nat → Bool} (h : Agree name own own' s t)
    (hs : Beside own own₁ s s') (ht : Beside own' own₁' t t')
    (hnamed : own₁ s'.nextCycle = true → name t'.nextCycle = name s'.nextCycle) :
    Agree name own₁ own₁' s' t' := by
  refine ⟨?_, ?_, ?_, hnamed, ?_, ?_⟩
  · rw [hs.cadence, ht.cadence, h.cadence]
  · rw [hs.lifecycle, ht.lifecycle, h.lifecycle]
  · rw [hs.coming, ht.coming, h.coming]
  · rw [hs.trail, ht.trail, h.trail]
  · rw [hs.strand, ht.strand]
    have hlive := h.live
    have hclock := hs.clock
    have hclock' := ht.clock
    generalize s.strand own = xs at hlive hclock
    generalize t.strand own' = ys at hlive hclock'
    cases hlive with
    | none => exact .none
    | @one c d ha hc =>
      obtain ⟨more, hmore⟩ := hs.sends
      obtain ⟨more', hmore'⟩ := ht.sends
      refine .one (ha.append hmore hmore') ?_
      rw [hclock c (List.mem_singleton_self c), hclock' d (List.mem_singleton_self d), hc]

theorem Agree.frame (h : Agree name own own' s t) (hs : Beside own own s s')
    (hnext : own s'.nextCycle = true → s'.nextCycle = s.nextCycle) : Agree name own own' s' t := by
  refine h.beside hs (.refl own' t) fun ho => ?_
  rw [hnext ho]
  exact h.named (hnext ho ▸ ho)

theorem Matched.of_mem {l r xs : List LiveCycle} (hl : s.live = l ++ c :: r)
    (ho : own c.attempt.cycle = true) (h : Matched name s t (s.strand own) xs) :
    (∃ d, xs = [d] ∧ Alike name s t c d ∧
      max t.bench.now (t.wakeTime d) = max s.bench.now (s.wakeTime c)) ∧
      (l.filter fun x => own x.attempt.cycle) = [] ∧
      (r.filter fun x => own x.attempt.cycle) = [] := by
  have hs : s.strand own = (l.filter fun x => own x.attempt.cycle) ++
      c :: r.filter fun x => own x.attempt.cycle := by
    simp [strand, hl, ho]
  rw [hs] at h
  generalize (l.filter fun x => own x.attempt.cycle) = before at h
  generalize (r.filter fun x => own x.attempt.cycle) = after at h
  cases before with
  | cons x before =>
    generalize hys : x :: before ++ c :: after = ys at h
    cases h with
    | none => cases hys
    | one =>
      have := congrArg List.length hys
      simp at this
  | nil =>
    generalize hys : [] ++ c :: after = ys at h
    cases h with
    | none => cases hys
    | one ha hc =>
      cases hys
      exact ⟨⟨_, rfl, ha, hc⟩, rfl, rfl⟩

/-! ## Polls of both strands -/

theorem renamed_verdict (h : Alike name s t c d) (o : Outcome) :
    (d.attempt.verdict o).renamed name = (c.attempt.verdict o).renamed name ∧
      (d.attempt.count.verdict o).renamed name = (c.attempt.count.verdict o).renamed name := by
  have hn := h.named
  rw [h.eq_attempt]
  cases o <;> simp [Attempt.verdict, Attempt.count, Event.renamed, hn]

variable {l r l' r' : List LiveCycle}

/-- Both cycles go on. -/
theorem Agree.continued {c' d' : LiveCycle} {e f : Entry} (h : Agree name own own' s t)
    (hl : s.live = l ++ c :: r) (hl' : t.live = l' ++ d :: r')
    (ho : own c.attempt.cycle = true) (ho' : own' d.attempt.cycle = true)
    (hc : Continues s l c r s' c' e) (hd : Continues t l' d r' t' d' f)
    (hef : f.renamed name = e.renamed name) (halike : Alike name s' t' c' d')
    (hnow : t'.bench.now = s'.bench.now) : Agree name own own' s' t' := by
  obtain ⟨_, hbefore, hafter⟩ := h.live.of_mem hl ho
  obtain ⟨_, hbefore', hafter'⟩ := h.live.symm.of_mem hl' ho'
  have hlifecycle : t'.lifecycle = s'.lifecycle := by
    rw [hc.lifecycle, hd.lifecycle]; exact h.lifecycle
  refine ⟨?_, hlifecycle, ?_, ?_, ?_, ?_⟩
  · rw [hc.cadence, hd.cadence]; exact h.cadence
  · rw [hc.nextCycle, hd.nextCycle]; exact h.coming
  · rw [hc.nextCycle, hd.nextCycle]; exact h.named
  · rw [trail_of_append [e] hc.log (by simp [hc.told, ho]),
      trail_of_append [f] hd.log (by simp [hd.told, ho'])]
    simp [hef, h.trail]
  · have hx : s'.strand own = [c'] := by
      simp [strand, hc.live, hc.cycle, ho, hbefore, hafter]
    have hy : t'.strand own' = [d'] := by
      simp [strand, hd.live, hd.cycle, ho', hbefore', hafter']
    rw [hx, hy]
    refine .one halike ?_
    rw [halike.wakeTime hlifecycle, hnow]

/-- Both cycles end, and nothing of the strands is live. -/
theorem Agree.ended {new new' : List Entry} (h : Agree name own own' s t)
    (hl : s.live = l ++ c :: r) (hl' : t.live = l' ++ d :: r')
    (ho : own c.attempt.cycle = true) (ho' : own' d.attempt.cycle = true)
    (hc : Ends s l c r s' new) (hd : Ends t l' d r' t' new')
    (hef : new'.map (Entry.renamed name) = new.map (Entry.renamed name)) :
    Agree name own own' s' t' ∧ s'.strand own = [] := by
  obtain ⟨_, hbefore, hafter⟩ := h.live.of_mem hl ho
  obtain ⟨_, hbefore', hafter'⟩ := h.live.symm.of_mem hl' ho'
  have hx : s'.strand own = [] := by simp [strand, hc.live, hbefore, hafter]
  have hy : t'.strand own' = [] := by simp [strand, hd.live, hbefore', hafter']
  refine ⟨⟨?_, ?_, ?_, ?_, ?_, ?_⟩, hx⟩
  · rw [hc.cadence, hd.cadence]; exact h.cadence
  · rw [hc.lifecycle, hd.lifecycle]; exact h.lifecycle
  · rw [hc.nextCycle, hd.nextCycle]; exact h.coming
  · rw [hc.nextCycle, hd.nextCycle]; exact h.named
  · rw [trail_of_append new hc.log (fun e hm => by simp [hc.told e hm, ho]),
      trail_of_append new' hd.log (fun f hm => by simp [hd.told f hm, ho'])]
    simp [hef, h.trail]
  · rw [hx, hy]
    exact .none

theorem Agree.noted {e f : Event} (h : Agree name own own' s t) (hl : s.live = l ++ c :: r)
    (hl' : t.live = l' ++ d :: r') (ho : own c.attempt.cycle = true)
    (ho' : own' d.attempt.cycle = true) (he : e.cycle? = some c.attempt.cycle)
    (hf : f.cycle? = some d.attempt.cycle) (hef : f.renamed name = e.renamed name)
    (hnow : t.bench.now = s.bench.now) :
    Agree name own own' { s.note e with live := l ++ r } { t.note f with live := l' ++ r' } ∧
      strand { s.note e with live := l ++ r } own = [] :=
  h.ended hl hl' ho ho' (ends_note he) (ends_note hf) (by simp [Entry.renamed, hef, hnow])

/-- Both strands are given a cycle when they have none. -/
theorem Agree.arm (h : Agree name own own' s t) (x : Cycle) (hempty : s.strand own = [])
    (ho : own s.nextCycle = true) (hcoming : own' (t.nextCycle + 1) = own (s.nextCycle + 1))
    (hnamed : own (s.nextCycle + 1) = true → name (t.nextCycle + 1) = name (s.nextCycle + 1))
    (hnow : t.bench.now = s.bench.now) : Agree name own own' (s.arm x) (t.arm x) := by
  have ho' : own' t.nextCycle = true := h.coming.trans ho
  have hname := h.named ho
  have hempty' : t.strand own' = [] := by
    have hlive := h.live
    rw [hempty] at hlive
    generalize t.strand own' = ys at hlive
    cases hlive
    rfl
  have hlive : (s.arm x).strand own = [s.armed x] := by
    have : (s.arm x).strand own = s.strand own ++ [s.armed x] := by simp [strand, armed, ho]
    rw [this, hempty]
    rfl
  have hlive' : (t.arm x).strand own' = [t.armed x] := by
    have : (t.arm x).strand own' = t.strand own' ++ [t.armed x] := by simp [strand, armed, ho']
    rw [this, hempty']
    rfl
  refine ⟨h.cadence, h.lifecycle, hcoming, hnamed, ?_, ?_⟩
  · have htrail : (s.arm x).trail own =
        [⟨s.bench.now, .armed s.nextCycle x.kind x.policy.initialDelay⟩] ++ s.trail own :=
      trail_of_append [_] rfl (by simp [Event.cycle?, ho])
    have htrail' : (t.arm x).trail own' =
        [⟨t.bench.now, .armed t.nextCycle x.kind x.policy.initialDelay⟩] ++ t.trail own' :=
      trail_of_append [_] rfl (by simp [Event.cycle?, ho'])
    rw [htrail, htrail']
    simp [h.trail, Entry.renamed, Event.renamed, hname, hnow]
  · rw [hlive, hlive']
    have halike : Alike name (s.arm x) (t.arm x) (s.armed x) (t.armed x) :=
      ⟨hname, by simp [armed, h.cadence], rfl, rfl, by simp only [armed, hnow]; exact .idle⟩
    refine .one halike ?_
    have hnow' : (t.arm x).bench.now = (s.arm x).bench.now := hnow
    rw [halike.wakeTime h.lifecycle, hnow']

theorem Agree.alike (h : Agree name own own' s t) (hl : s.live = l ++ c :: r)
    (hl' : t.live = l' ++ d :: r') (ho : own c.attempt.cycle = true)
    (ho' : own' d.attempt.cycle = true) : Alike name s t c d := by
  obtain ⟨⟨x, hx, halike, _⟩, _⟩ := h.live.of_mem hl ho
  have hd : d ∈ t.strand own' := by simp [strand, hl', ho']
  rw [hx, List.mem_singleton] at hd
  exact hd ▸ halike

/-- Two cycles alike that are polled at one time come to the same. -/
theorem Agree.turn {built : Except ErrorChain Descriptor} {reply : Reply}
    (hname : ∀ a b, name a = name b → name (a + 1) = name (b + 1))
    (h : Agree name own own' s t) (hs : s.bench.Steady built reply)
    (ht : t.bench.Steady built reply) (hcs : s.Closed own) (hct : t.Closed own')
    (hl : s.live = l ++ c :: r) (hl' : t.live = l' ++ d :: r')
    (ho : own c.attempt.cycle = true) (ho' : own' d.attempt.cycle = true)
    (hnow : t.bench.now = s.bench.now) (hturn : Turn s l c r s') (hturn' : Turn t l' d r' t') :
    Agree name own own' s' t' := by
  have halike := h.alike hl hl' ho ho'
  have hd : d.attempt = { c.attempt with cycle := d.attempt.cycle } := halike.eq_attempt
  have hkind : d.attempt.kind = c.attempt.kind := by rw [hd]
  have htries : d.attempt.maxTries = c.attempt.maxTries := by rw [hd]
  have hticks : d.attempt.ticks = c.attempt.ticks := by rw [hd]
  have hcount : d.attempt.count.ticks = c.attempt.count.ticks := by rw [hd]; rfl
  have hcounted : { d.attempt.count with cycle := c.attempt.cycle } = c.attempt.count := by
    rw [hd]; rfl
  have hv : ∀ o, (c.attempt.verdict o).cycle? = some c.attempt.cycle := c.attempt.cycle?_verdict
  have hv' : ∀ o, (d.attempt.verdict o).cycle? = some d.attempt.cycle := d.attempt.cycle?_verdict
  have hverdict := renamed_verdict halike
  have hfactory := hs.factory_next.trans ht.factory_next.symm
  cases hturn with
  | cancelled hp hst =>
    obtain rfl := hturn'.unique hl' (.cancelled (halike.idle hp) (h.lifecycle.trans hst))
    exact (h.noted hl hl' ho ho' rfl rfl (by simp [Event.renamed, halike.named, hkind]) hnow).1
  | exhausted hp hst ha =>
    rw [← hcount, ← htries] at ha
    obtain rfl := hturn'.unique hl' (.exhausted (halike.idle hp) (h.lifecycle ▸ hst) ha)
    refine (h.noted hl hl' ho ho' rfl rfl ?_ hnow).1
    simp [Event.renamed, halike.named, hkind, hcount]
  | @unsent deadline chain hp hst ha hf =>
    rw [← hcount, ← htries] at ha
    obtain rfl := hturn'.unique hl'
      (.unsent (halike.idle hp) (h.lifecycle ▸ hst) ha (hfactory ▸ hf))
    refine h.continued hl hl' ho ho'
      ⟨rfl, rfl, rfl, rfl, rfl, rfl, rfl,
        Attempt.cycle?_verdict c.attempt.count (.fail .descriptor chain.message)⟩
      ⟨rfl, rfl, rfl, rfl, rfl, rfl, rfl,
        Attempt.cycle?_verdict d.attempt.count (.fail .descriptor chain.message)⟩ ?_ ?_ hnow
    · simp only [Entry.renamed, hnow, (hverdict _).2]
    · refine ⟨halike.named, hcounted, halike.period, halike.onSuccess, ?_⟩
      simp only [hnow, halike.period]
      exact .idle
  | @sent deadline desc hp hst ha hf =>
    rw [← hcount, ← htries] at ha
    obtain rfl := hturn'.unique hl'
      (.sent (halike.idle hp) (h.lifecycle ▸ hst) ha (hfactory ▸ hf))
    refine h.continued hl hl' ho ho' ⟨rfl, rfl, rfl, rfl, rfl, rfl, rfl, rfl⟩
      ⟨rfl, rfl, rfl, rfl, rfl, rfl, rfl, rfl⟩ ?_ ?_ hnow
    · simp [Entry.renamed, Event.renamed, hnow, halike.named]
    · refine ⟨halike.named, hcounted, halike.period, halike.onSuccess, ?_⟩
      -- the same reply settles both sends in the same way
      have hreply := hs.script_next.trans ht.script_next.symm
      simp only [Transport.send, hnow, ← hreply]
      exact .waiting List.getElem?_concat_length List.getElem?_concat_length
  | @retried deadline late send o hp hout hfail =>
    obtain ⟨n, hp', hending⟩ := halike.waiting hp
    rw [← hending] at hout
    obtain rfl := hturn'.unique hl' (.retried hp' hout hfail)
    refine h.continued hl hl' ho ho' ⟨rfl, rfl, rfl, rfl, rfl, rfl, rfl, hv o⟩
      ⟨rfl, rfl, rfl, rfl, rfl, rfl, rfl, hv' o⟩ ?_ ?_ hnow
    · simp only [Entry.renamed, hnow, (hverdict _).1]
    · refine ⟨halike.named, halike.attempt, halike.period, halike.onSuccess, ?_⟩
      simp only [halike.period]
      exact .idle
  | delivered hp hout hk =>
    obtain ⟨n, hp', hending⟩ := halike.waiting hp
    rw [← hending] at hout
    obtain rfl := hturn'.unique hl' (.delivered hp' hout (halike.onSuccess.trans hk))
    exact (h.noted hl hl' ho ho' (hv _) (hv' _) (hverdict _).1 hnow).1
  | notRearmed hp hout hk hst =>
    obtain ⟨n, hp', hending⟩ := halike.waiting hp
    rw [← hending] at hout
    obtain rfl := hturn'.unique hl'
      (.notRearmed hp' hout (halike.onSuccess.trans hk) (h.lifecycle ▸ hst))
    refine (h.ended hl hl' ho ho' ends_late ends_late ?_).1
    simp [Entry.renamed, Attempt.verdict, Event.renamed, hnow, halike.named, hkind, hticks]
  | rearmed hp hout hk hst =>
    obtain ⟨n, hp', hending⟩ := halike.waiting hp
    rw [← hending] at hout
    have hk' := halike.onSuccess.trans hk
    obtain rfl := hturn'.unique hl' (.rearmed hp' hout hk' (h.lifecycle.trans hst))
    obtain ⟨hagree, hempty⟩ := h.noted hl hl' ho ho' (hv .success) (hv' .success) (hverdict _).1
      hnow
    have hnext : ∀ id, s.nextCycle ≤ id → own id = true := fun id hid =>
      (hcs c (by simp [hl]) hk id hid).trans ho
    have hnext' : ∀ id, t.nextCycle ≤ id → own' id = true := fun id hid =>
      (hct d (by simp [hl']) hk' id hid).trans ho'
    rw [h.cadence]
    exact hagree.arm _ hempty (hnext _ (Nat.le_refl _))
      ((hnext' _ (Nat.le_succ _)).trans (hnext _ (Nat.le_succ _)).symm)
      (fun _ => hname _ _ (h.named (hnext _ (Nat.le_refl _)))) hnow

/-! ## All that is ready -/

section Passing

variable {built : Except ErrorChain Descriptor} {reply : Reply} {target : Nat} {t₁ s₁ : Scheduler}

/-- An advance of a cycle outside the strand. -/
theorem Agree.advance_other (h : Agree name own own' s t) (hs : s.Tended built reply own)
    (hl : s.live = l ++ c :: r)
    (hfirst : ∀ x ∈ s.live, s.wakeTime c ≤ max s.bench.now (s.wakeTime x))
    (ho : own c.attempt.cycle = false) (hturn : Turn (s.wait (s.wakeTime c)) l c r s') :
    Agree name own own' s' t := by
  have hwait := h.frame (beside_wait hfirst) fun _ => rfl
  obtain ⟨hbeside, hnext⟩ := hturn.beside (hs.sound.wait hfirst) hs.closed hl ho
  exact hwait.frame hbeside hnext

/-- While nothing is ready in one scheduler, only other cycles are ready in the other one. -/
theorem Agree.rest (h : Agree name own own' s t) (ht : t.Tended built reply own')
    (hn : t.bench.now ≤ target) (hrest : ∀ c ∈ s.live, target < s.wakeTime c)
    (hp : Passes target t t₁) : Agree name own own' s t₁ := by
  induction hp with
  | rest => exact h
  | step ha _ ih =>
    obtain ⟨l, d, r, hl, hw, hfirst, hturn⟩ := ha.turn
    cases ho : own' d.attempt.cycle with
    | false =>
      exact ih (h.symm.advance_other ht hl hfirst ho hturn).symm (ht.advances ha) (ha.now_le hn)
    | true =>
      obtain ⟨⟨c, hc, _, hclock⟩, _⟩ := h.live.symm.of_mem hl ho
      have hmem : c ∈ s.strand own := by rw [hc]; exact List.mem_singleton_self c
      have := hrest c (List.mem_filter.mp hmem).1
      omega

/-- Where a cycle of one strand is polled, that of the other one is in the end, at the same time. -/
theorem Agree.meet (hname : ∀ a b, name a = name b → name (a + 1) = name (b + 1))
    (h : Agree name own own' s t) (hs : s.Tended built reply own)
    (ht : t.Tended built reply own') (hns : s.bench.now ≤ target) (hn : t.bench.now ≤ target)
    (hl : s.live = l ++ c :: r) (ho : own c.attempt.cycle = true) (hw : s.wakeTime c ≤ target)
    (hfirst : ∀ x ∈ s.live, s.wakeTime c ≤ max s.bench.now (s.wakeTime x))
    (hturn : Turn (s.wait (s.wakeTime c)) l c r s') (hp : Passes target t t₁) :
    ∃ t', Agree name own own' s' t' ∧ t'.Tended built reply own' ∧ t'.bench.now ≤ target ∧
      Passes target t' t₁ := by
  induction hp with
  | @rest t hrest =>
    obtain ⟨⟨d, hd, _, hclock⟩, _⟩ := h.live.of_mem hl ho
    have hmem : d ∈ t.strand own' := by rw [hd]; exact List.mem_singleton_self d
    have := hrest d (List.mem_filter.mp hmem).1
    omega
  | @step t t' t₁ ha hp ih =>
    obtain ⟨l', d, r', hl', hw', hfirst', hturn'⟩ := ha.turn
    cases ho' : own' d.attempt.cycle with
    | false =>
      exact ih (h.symm.advance_other ht hl' hfirst' ho' hturn').symm (ht.advances ha)
        (ha.now_le hn)
    | true =>
      refine ⟨t', ?_, ht.advances ha, ha.now_le hn, hp⟩
      obtain ⟨⟨x, hx, _, hclock⟩, _⟩ := h.live.of_mem hl ho
      have hd : d ∈ t.strand own' := List.mem_filter.mpr ⟨by simp [hl'], ho'⟩
      rw [hx, List.mem_singleton] at hd
      subst hd
      have hwait : Agree name own own' (s.wait (s.wakeTime c)) (t.wait (t.wakeTime d)) :=
        h.beside (beside_wait hfirst) (beside_wait hfirst') h.named
      exact hwait.turn hname hs.steady.wait ht.steady.wait hs.closed ht.closed hl hl' ho ho'
        hclock hturn hturn'

/-- Strands that agree do so when all that is ready has been polled, whatever the orders. -/
theorem Agree.passes (hname : ∀ a b, name a = name b → name (a + 1) = name (b + 1))
    (h : Agree name own own' s t) (hs : s.Tended built reply own)
    (ht : t.Tended built reply own') (hns : s.bench.now ≤ target) (hn : t.bench.now ≤ target)
    (hp : Passes target s s₁) (hp' : Passes target t t₁) : Agree name own own' s₁ t₁ := by
  induction hp generalizing t with
  | rest hrest => exact h.rest ht hn hrest hp'
  | step ha _ ih =>
    obtain ⟨l, c, r, hl, hw, hfirst, hturn⟩ := ha.turn
    cases ho : own c.attempt.cycle with
    | false =>
      exact ih (h.advance_other hs hl hfirst ho hturn) (hs.advances ha) ht (ha.now_le hns) hn hp'
    | true =>
      obtain ⟨t', h', ht', hn', hp''⟩ :=
        h.meet hname hs ht hns hn hl ho hw hfirst hturn hp'
      exact ih h' (hs.advances ha) ht' (ha.now_le hns) hn' hp''

end Passing

/-! ## Calls -/

theorem Matched.of_alike {xs ys : List LiveCycle} (h : Matched name s t xs ys)
    (hlifecycle : t'.lifecycle = s'.lifecycle) (hnow : t'.bench.now = s'.bench.now)
    (halike : ∀ {c d}, Alike name s t c d → Alike name s' t' c d) : Matched name s' t' xs ys := by
  cases h with
  | none => exact .none
  | one ha =>
    refine .one (halike ha) ?_
    rw [(halike ha).wakeTime hlifecycle, hnow]

theorem Agree.turned (h : Agree name own own' s t) (state : Lifecycle)
    (hnow : t.bench.now = s.bench.now) :
    Agree name own own' { s with lifecycle := state } { t with lifecycle := state } where
  cadence := h.cadence
  lifecycle := rfl
  coming := h.coming
  named := h.named
  trail := h.trail
  live := h.live.of_alike rfl hnow fun ha => { ha with }

/-- A release answers the same of the sends that two cycles alike wait for. -/
theorem Alike.release {built : Except ErrorChain Descriptor} {reply : Reply}
    (h : Alike name s t c d) (hs : s.bench.Steady built reply) (ht : t.bench.Steady built reply)
    (hr : Reachable s) (hr' : Reachable t) (hnow : t.bench.now = s.bench.now) (r : Reply) :
    Alike name (s.release r) (t.release r) c d := by
  cases r with
  | hold delay => exact { h with }
  | after delay answer =>
    refine { h with phase := ?_ }
    have hp := h.phase
    generalize c.phase = p at hp
    generalize d.phase = q at hp
    cases hp with
    | idle => exact .idle
    | waiting hx hy =>
      have hx' := Transport.release_sends hr.follows.transport hr.holding s.bench.now delay answer hx
      have hy' := Transport.release_sends hr'.follows.transport hr'.holding t.bench.now delay
        answer hy
      rw [hs.reply] at hx'
      rw [ht.reply, hnow] at hy'
      exact .waiting hx' (by simpa only [Scheduler.release, Bench.release, hnow] using hy')

theorem Agree.release {built : Except ErrorChain Descriptor} {reply : Reply}
    (h : Agree name own own' s t) (hs : s.bench.Steady built reply)
    (ht : t.bench.Steady built reply) (hr : Reachable s) (hr' : Reachable t)
    (hnow : t.bench.now = s.bench.now) (r : Reply) :
    Agree name own own' (s.release r) (t.release r) where
  cadence := h.cadence
  lifecycle := h.lifecycle
  coming := h.coming
  named := h.named
  trail := h.trail
  live := h.live.of_alike h.lifecycle hnow fun ha => ha.release hs ht hr hr' hnow r

end Agreement

end Scheduler
end Heartbeat
