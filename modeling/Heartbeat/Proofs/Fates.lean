import Heartbeat.Proofs.Course
import Heartbeat.Proofs.Tandem

/-!
# Heartbeat.Proofs.Fates

What becomes of a send, and which send a delivery is the answer to.

* `Sent.heard?`  — the answer to a send, if it comes in time.
* `Attends`      — a released answer reaches a tick only before the end of its wait.
* `Takes.attends`— so it is between any two steps of a run.
* `Fates`        — every send is awaited by its tick still, or its tick has ended with the answer
  heard or the timeout; and every delivery is the end of such a tick.
* `Runs.fates`   — so it is after every run.
-/

namespace Heartbeat

/-! ## Answers in time -/

namespace Sent

variable {timeout now : Nat} {reply : Reply} {x y : Sent} {a : Settlement}

/-- Whether an answer counts. One that the reply gives by itself counts up to the end of the wait,
one that is released counts before it. -/
def counts (timeout : Nat) (reply : Reply) (x : Sent) (a : Settlement) : Bool :=
  match reply with
  | .after .. => a.time ≤ x.time + timeout
  | .hold _ => a.time < x.time + timeout

def heard? (timeout : Nat) (reply : Reply) (x : Sent) : Option Settlement :=
  x.settlement.filter (x.counts timeout reply)

/-- When and how the tick ends that made a send. -/
def ends (timeout : Nat) (reply : Reply) (x : Sent) : Nat × Outcome :=
  match x.heard? timeout reply with
  | some a => (a.time, a.answer.outcome)
  | none => (x.time + timeout, .timeout)

theorem heard?_of_settled (h : x.settlement = some a) (hc : x.counts timeout reply a = true) :
    x.heard? timeout reply = some a := by
  rw [heard?, h, Option.filter_some, if_pos hc]

theorem heard?_eq_some : x.heard? timeout reply = some a ↔
    x.settlement = some a ∧ x.counts timeout reply a = true :=
  Option.filter_eq_some_iff

theorem exists_heard (h : (x.ends timeout reply).2 = .success) :
    ∃ a, x.heard? timeout reply = some a ∧ a.answer.outcome = .success ∧
      (x.ends timeout reply).1 = a.time := by
  unfold ends at h ⊢
  split at h
  · exact ⟨_, ‹_›, h, rfl⟩
  · cases h

/-- An answer that counts stays. -/
theorem Keeps.heard?_some (h : x.Keeps now y) (ha : x.heard? timeout reply = some a) :
    y.heard? timeout reply = some a := by
  obtain ⟨hs, hc⟩ := heard?_eq_some.mp ha
  obtain ⟨ht, _, hy | ⟨hnone, _⟩⟩ := h
  · refine heard?_of_settled (hy.trans hs) ?_
    simpa only [counts, ht] using hc
  · cases hnone.symm.trans hs

/-- None comes to count when the tick has ended. -/
theorem Keeps.ends_eq (h : x.Keeps now y) (hr : Replied x.time reply x.settlement)
    (hn : (x.ends timeout reply).1 ≤ now) : y.ends timeout reply = x.ends timeout reply := by
  cases ha : x.heard? timeout reply with
  | some a => rw [ends, ends, ha, h.heard?_some ha]
  | none =>
    obtain ⟨ht, _, hy | ⟨hnone, a, hsome, hle⟩⟩ := h
    · have hcounts : y.counts timeout reply = x.counts timeout reply := by
        funext a
        simp only [counts, ht]
      rw [ends, ends, heard?, heard?, hy, hcounts, ht]
    · simp only [ends, ha] at hn
      -- only a reply that was held back is answered later
      have hlate : y.heard? timeout reply = none := by
        rw [hnone] at hr
        cases hr
        rw [heard?, hsome, Option.filter_some, if_neg]
        simp only [counts, decide_eq_true_eq]
        omega
      rw [ends, ends, ha, hlate, ht]

end Sent

namespace Scheduler

variable {s s' : Scheduler} {l r : List LiveCycle} {c x : LiveCycle}
  {deadline late send target id : Nat}

/-- The answer to a send, if there is one that counts. -/
def heard? (s : Scheduler) (send : Nat) : Option Settlement :=
  s.bench.transport.sends[send]?.bind
    (·.heard? s.cadence.responseTimeout (s.bench.transport.script.item send))

theorem Moves.heard?_some (hm : s.Moves s') {a : Settlement} (h : s.heard? send = some a) :
    s'.heard? send = some a := by
  obtain ⟨x, hx, ha⟩ := Option.bind_eq_some_iff.mp h
  obtain ⟨y, hy, hkeeps⟩ := hm.grows.sends _ x hx
  rw [heard?, hy, hm.cadence_eq, hm.grows.script]
  exact hkeeps.heard?_some ha

/-! ## Ticks and their answers -/

/-- A released answer reaches a tick only before the end of its wait. -/
structure Attends (s : Scheduler) : Prop where
  reachable : Reachable s
  attentive : ∀ c ∈ s.live, ∀ deadline late send, c.phase = .waiting deadline late send →
    ∀ a, s.bench.transport.settlement? send = some a →
      ∀ delay, s.bench.transport.script.item send = .hold delay →
        a.time < deadline + late + s.cadence.responseTimeout

/-- No tick without an answer has come to the end of its wait. -/
def Punctual (s : Scheduler) : Prop :=
  ∀ c ∈ s.live, ∀ deadline late send, c.phase = .waiting deadline late send →
    s.bench.transport.settlement? send = none →
      s.bench.now < deadline + late + s.cadence.responseTimeout

/-- The end of a tick under way is what its send says. -/
theorem Attends.ending_eq (h : s.Attends) (hc : c ∈ s.live)
    (hp : c.phase = .waiting deadline late send) :
    ∃ x, s.bench.transport.sends[send]? = some x ∧ x.time = deadline + late ∧
      s.ending c deadline late send =
        x.ends s.cadence.responseTimeout (s.bench.transport.script.item send) := by
  obtain ⟨x, hx, ht⟩ := h.reachable.sent_of_waiting hc hp
  have hreplied := h.reachable.follows.transport.replied _ x hx
  have hsettled : s.bench.transport.settlement? send = x.settlement := by
    rw [Transport.settlement?, hx, Option.bind_some]
  have hatt := h.attentive c hc _ _ _ hp
  refine ⟨x, hx, ht, ?_⟩
  rw [ending, Bench.awaits, hsettled, (h.reachable.sound.each c hc).timeout, ← ht]
  rw [hsettled, ← ht] at hatt
  generalize s.bench.transport.script.item send = reply at hreplied hatt
  cases hs : x.settlement with
  | none => simp [conclude, Sent.ends, Sent.heard?, hs]
  | some a =>
    rw [hs] at hreplied hatt
    have hle := h.reachable.le_of_settled hx a hs
    have hcounts : x.counts s.cadence.responseTimeout reply a =
        decide (a.time ≤ x.time + s.cadence.responseTimeout) := by
      cases reply with
      | after => rfl
      | hold delay =>
        have := hatt a rfl delay rfl
        simp only [Sent.counts, decide_eq_decide]
        omega
    simp only [conclude, Sent.ends, Sent.heard?, hs, Option.filter_some, hcounts,
      decide_eq_true_eq]
    split
    · simp only [Nat.max_eq_right hle]
    · rfl

/-- A tick under way after a poll was so before, or has just begun. -/
theorem Turn.waiting (ht : Turn s l c r s') (hx : x ∈ s'.live)
    (hp : x.phase = .waiting deadline late send) :
    x ∈ l ++ r ∨ send = s.bench.transport.sends.length ∧ x.attempt.cycle = c.attempt.cycle ∧
      ∃ d, s.bench.factory.next = .ok d ∧
        s'.bench.transport = s.bench.transport.send s.bench.now d ∧
        s'.bench.log = ⟨s.bench.now, .sending c.attempt.cycle d.agentId⟩ :: s.bench.log := by
  have replaced : ∀ {c' : LiveCycle}, x ∈ l ++ c' :: r → x = c' ∨ x ∈ l ++ r := by
    intro c' hx
    simp only [List.mem_append, List.mem_cons] at hx ⊢
    tauto
  cases ht with
  | cancelled | exhausted | delivered | notRearmed => exact .inl hx
  | unsent | retried =>
    rcases replaced hx with rfl | hx
    · cases hp
    · exact .inl hx
  | @sent _ d _ _ _ hf =>
    rcases replaced hx with rfl | hx
    · cases hp
      exact .inr ⟨rfl, rfl, d, hf, rfl, rfl⟩
    · exact .inl hx
  | rearmed =>
    rcases List.mem_append.mp hx with hx | hx
    · exact .inl hx
    · cases List.mem_singleton.mp hx
      cases hp

theorem mem_live_of_ne (hl : s.live = l ++ c :: r) (hx : x ∈ l ++ r) : x ∈ s.live := by
  rw [hl]
  simp only [List.mem_append, List.mem_cons] at hx ⊢
  tauto

theorem Attends.advances (h : s.Attends) (ha : Advances target s s') : s'.Attends := by
  refine ⟨h.reachable.moves ha.moves, fun x hx deadline late send hp a hset delay hitem => ?_⟩
  obtain ⟨l, c, r, hl, _, _, ht⟩ := ha.turn
  rw [ha.moves.cadence_eq]
  rw [ha.moves.grows.script] at hitem
  rcases ht.waiting hx hp with hx | ⟨rfl, _, d, _, hsend, _⟩
  · have hx := mem_live_of_ne hl hx
    have hlen := ((h.reachable.sound.each x hx).begun hp).2.1
    rw [Transport.settlement?, ha.getElem?_sends hlen] at hset
    exact h.attentive x hx _ _ _ hp a hset delay hitem
  · -- a reply that is held back has not been answered yet
    have hnext : s.bench.transport.script.next = .hold delay := by
      rw [Script.next_eq_item, h.reachable.follows.transport.taken]
      exact hitem
    rw [hsend] at hset
    simp [Transport.settlement?, Transport.send, Scheduler.wait, Bench.moveTo, hnext,
      Reply.settlement] at hset

theorem Attends.passes (h : s.Attends) (hp : Passes target s s') : s'.Attends := by
  induction hp with
  | rest => exact h
  | step ha _ ih => exact ih (h.advances ha)

/-- Once all that is ready has been polled, ticks without an answer have time left. -/
theorem Attends.punctual (h : s.Attends) (hr : s.AtRest) : s.Punctual := by
  intro c hc deadline late send hp hnone
  have hlt := hr c hc
  rw [wakeTime_waiting hp, ending, Bench.awaits, hnone,
    (h.reachable.sound.each c hc).timeout] at hlt
  exact hlt

theorem Attends.wait (h : s.Attends) {time : Nat} (hw : ∀ c ∈ s.live, time ≤ s.wakeTime c) :
    (s.wait time).Attends :=
  ⟨.move h.reachable (.wait time hw), h.attentive⟩

/-- What is released now answers only what has no answer yet. -/
theorem settlement?_release (h : Reachable s) {reply : Reply} {a : Settlement}
    (ha : (s.release reply).bench.transport.settlement? send = some a) :
    s.bench.transport.settlement? send = some a ∨
      s.bench.transport.settlement? send = none ∧ a.time = s.bench.now := by
  cases reply with
  | hold => exact .inl ha
  | after d answer =>
    obtain ⟨y, hy, ha⟩ := Option.bind_eq_some_iff.mp ha
    have hlen := (List.getElem?_eq_some_iff.mp hy).1
    have hsends : (s.release (.after d answer)).bench.transport.sends.length =
        s.bench.transport.sends.length := Transport.sends_length_release _ _ _
    rw [hsends] at hlen
    have hx := List.getElem?_eq_getElem hlen
    have hreleased := Transport.release_sends h.follows.transport h.holding s.bench.now d answer hx
    cases hy.symm.trans hreleased
    rw [Transport.settlement?, hx, Option.bind_some]
    cases hs : s.bench.transport.sends[send].settlement with
    | some b =>
      rw [Sent.released_of_some hs] at ha
      exact .inl (hs.symm.trans ha)
    | none =>
      refine .inr ⟨rfl, ?_⟩
      unfold Sent.released at ha
      rw [hs] at ha
      split at ha
      · split at ha
        · cases ha
          rfl
        · cases hs.symm.trans ha
      · cases hs.symm.trans ha

/-- What is released to a tick that has time left is in time. -/
theorem Attends.release (h : s.Attends) (hpunctual : s.Punctual) (reply : Reply) :
    (s.release reply).Attends ∧ (s.release reply).Punctual := by
  have hm : Move s (s.release reply) := .release reply
  refine ⟨⟨.move h.reachable hm, fun c hc deadline late send hp a hset delay hitem => ?_⟩,
    fun c hc deadline late send hp hnone => ?_⟩
  · rw [hm.grows.script] at hitem
    rcases settlement?_release h.reachable hset with hset | ⟨hnone, hnow⟩
    · exact h.attentive c hc _ _ _ hp a hset delay hitem
    · have hleft := hpunctual c hc _ _ _ hp hnone
      rw [← hnow] at hleft
      exact hleft
  · refine hpunctual c hc _ _ _ hp ?_
    have hlen := ((h.reachable.sound.each c hc).begun hp).2.1
    rcases hm.grows.sends.settlement? hlen with hsame | ⟨hnone, _⟩
    · exact hsame.symm.trans hnone
    · exact hnone

/-! ## Fates -/

/-- A send was made in a tick of cycle `id`, and the log has told `later` of the cycle since. -/
def SentBy (s : Scheduler) (send id : Nat) (later : List Entry) : Prop :=
  ∃ time d older, s.bench.Dispatch id time send d older ∧
    s.history id = Entry.ofCycle id older ++ ⟨time, .sending id d.agentId⟩ :: later

/-- What has become of a send. -/
inductive Fate (s : Scheduler) (send : Nat) (x : Sent) : Prop where
  | awaited {c : LiveCycle} {deadline late : Nat} :
      c ∈ s.live → c.phase = .waiting deadline late send → Fate s send x
  /-- The tick that made it has ended as its answer says, or for want of one that counts. -/
  | ended {a : Attempt} {time : Nat} {o : Outcome} {later : List Entry} :
      x.ends s.cadence.responseTimeout (s.bench.transport.script.item send) = (time, o) →
      time ≤ s.bench.now → s.SentBy send a.cycle (⟨time, a.verdict o⟩ :: later) → Fate s send x

/-- An entry tells that a tick has ended in a success, which was the answer to its own send. -/
def Credited (s : Scheduler) (e : Entry) : Prop :=
  ∃ send y, ∃ a : Attempt, ∃ later, s.heard? send = some y ∧ y.answer.outcome = .success ∧
    e = ⟨y.time, a.verdict .success⟩ ∧ s.SentBy send a.cycle (e :: later)

structure Fates (s : Scheduler) : Prop where
  begun : ∀ c ∈ s.live, ∀ deadline late send, c.phase = .waiting deadline late send →
    s.SentBy send c.attempt.cycle []
  each : ∀ send x, s.bench.transport.sends[send]? = some x → s.Fate send x
  credited : ∀ e ∈ s.bench.log, e.event.isDelivery = true → s.Credited e

section Fates

variable {e : Entry} {later : List Entry} {y : Sent}

theorem Moves.history (hm : s.Moves s') (id : Nat) :
    ∃ more, s'.history id = s.history id ++ more := by
  obtain ⟨new, hnew⟩ := hm.grows.log
  refine ⟨Entry.ofCycle id new, ?_⟩
  rw [Scheduler.history, Scheduler.history, ← hnew, Entry.ofCycle, List.filter_append,
    List.reverse_append]
  rfl

theorem SentBy.grow (h : s.SentBy send id later) (hm : s.Moves s') {more : List Entry}
    (hh : s'.history id = s.history id ++ more) : s'.SentBy send id (later ++ more) := by
  obtain ⟨time, d, older, hd, hhist⟩ := h
  refine ⟨time, d, older, hd.grow hm.grows, ?_⟩
  rw [hh, hhist, List.append_assoc, List.cons_append]

theorem SentBy.moves (h : s.SentBy send id later) (hm : s.Moves s') :
    ∃ more, s'.SentBy send id (later ++ more) := by
  obtain ⟨more, hmore⟩ := hm.history id
  exact ⟨more, h.grow hm hmore⟩

theorem SentBy.still (h : s.SentBy send id later) (hm : s.Moves s')
    (hh : s'.history id = s.history id) : s'.SentBy send id later := by
  have := h.grow hm (hh.trans (List.append_nil _).symm)
  rwa [List.append_nil] at this

theorem Credited.moves (h : s.Credited e) (hm : s.Moves s') : s'.Credited e := by
  obtain ⟨send, y, a, later, hy, ho, rfl, hsent⟩ := h
  obtain ⟨more, hmore⟩ := hsent.moves hm
  exact ⟨send, y, a, later ++ more, hm.heard?_some hy, ho, rfl, hmore⟩

theorem Fate.moves_ended {x : Sent} {a : Attempt} {time : Nat} {o : Outcome} (h : Reachable s)
    (hm : s.Moves s') (hx : s.bench.transport.sends[send]? = some x)
    (hy : s'.bench.transport.sends[send]? = some y)
    (hend : x.ends s.cadence.responseTimeout (s.bench.transport.script.item send) = (time, o))
    (hn : time ≤ s.bench.now) (hsent : s.SentBy send a.cycle (⟨time, a.verdict o⟩ :: later)) :
    s'.Fate send y := by
  obtain ⟨z, hz, hkeeps⟩ := hm.grows.sends _ x hx
  cases hy.symm.trans hz
  obtain ⟨more, hmore⟩ := hsent.moves hm
  refine .ended ?_ (Nat.le_trans hn hm.grows.now) hmore
  rw [hm.cadence_eq, hm.grows.script, ← hend]
  exact hkeeps.ends_eq (h.follows.transport.replied _ x hx) (by rw [hend]; exact hn)

/-- Where no tick begins or ends the fates stay, but for what was held back. -/
theorem Fates.quiet (h : s.Fates) (hr : Reachable s) (hm : s.Moves s') (hq : Quiet s s') :
    s'.Fates where
  begun c hc deadline late send hp := by
    have hc := hq.waiting c hc _ _ _ hp
    exact (h.begun c hc _ _ _ hp).still hm (hq.history c hc)
  each send y hy := by
    have hlen := (List.getElem?_eq_some_iff.mp hy).1
    rw [hq.sends] at hlen
    have hx := List.getElem?_eq_getElem hlen
    cases h.each _ _ hx with
    | awaited hc hp => exact .awaited (hq.live _ hc) hp
    | ended hend hn hsent => exact Fate.moves_ended hr hm hx hy hend hn hsent
  credited e he hd := (h.credited e ((hq.log.mem_iff hd).mp he) hd).moves hm

theorem Turn.sends_new (ht : Turn s l c r s')
    (hx : s'.bench.transport.sends[send]? = some y)
    (hlen : s.bench.transport.sends.length ≤ send) :
    ∃ x ∈ s'.live, ∃ deadline late, x.phase = .waiting deadline late send := by
  have hlt := (List.getElem?_eq_some_iff.mp hx).1
  cases ht with
  | @sent deadline d =>
    obtain rfl : send = s.bench.transport.sends.length := by
      simp only [Transport.send, List.length_append, List.length_singleton] at hlt
      omega
    exact ⟨_, List.mem_append_right _ (List.mem_cons_self ..), _, _, rfl⟩
  | _ => exact absurd hlt (Nat.not_lt.mpr hlen)

theorem Turn.delivers (ht : Turn s l c r s') (he : e ∈ s'.bench.log)
    (hd : e.event.isDelivery = true) :
    e ∈ s.bench.log ∨ ∃ deadline late send, c.phase = .waiting deadline late send ∧
      (s.ending c deadline late send).2 = .success ∧
      e = ⟨s.bench.now, c.attempt.verdict .success⟩ := by
  have new : ∀ {x : Entry}, e ∈ x :: s.bench.log → x.event.isDelivery = false →
      e ∈ s.bench.log := by
    intro x he hx
    rcases List.mem_cons.mp he with rfl | he
    · rw [hd] at hx
      cases hx
    · exact he
  have failed : ∀ (a : Attempt) {o : Outcome}, o.isSuccess = false →
      (a.verdict o).isDelivery = false := by
    intro a o ho
    cases o <;> first | rfl | cases ho
  cases ht with
  | cancelled | exhausted | sent => exact .inl (new he rfl)
  | @unsent _ chain =>
    exact .inl (new he (failed c.attempt.count (o := .fail .descriptor chain.message) rfl))
  | retried _ _ ho => exact .inl (new he (failed _ ho))
  | delivered hp ho =>
    rcases List.mem_cons.mp he with rfl | he
    · exact .inr ⟨_, _, _, hp, ho, rfl⟩
    · exact .inl he
  | rearmed hp ho | notRearmed hp ho =>
    rcases List.mem_cons.mp he with rfl | he
    · cases hd
    · rcases List.mem_cons.mp he with rfl | he
      · exact .inr ⟨_, _, _, hp, ho, rfl⟩
      · exact .inl he

/-- A tick that has just begun is that of the send just made. -/
theorem sentBy_send {d : Descriptor} (hf : s.bench.Follows) (hd : s.bench.factory.next = .ok d)
    (hg : s.bench.Grows s'.bench)
    (hsend : s'.bench.transport = s.bench.transport.send s.bench.now d)
    (hlog : s'.bench.log = ⟨s.bench.now, .sending id d.agentId⟩ :: s.bench.log) :
    s'.SentBy s.bench.transport.sends.length id [] := by
  refine ⟨s.bench.now, d, s.bench.log, ⟨?_, ?_, hf.sends, ?_⟩, ?_⟩
  · rw [hlog]
  · rw [hg.factory, hf.item_calls, hd]
  · exact ⟨_, by rw [hsend]; exact List.getElem?_concat_length, rfl, rfl⟩
  · rw [Scheduler.history, hlog, Entry.ofCycle_cons_self rfl]

theorem Fates.begun_advances (h : s.Fates) (hr : Reachable s) (ha : Advances target s s')
    (hx : x ∈ s'.live) (hp : x.phase = .waiting deadline late send) :
    s'.SentBy send x.attempt.cycle [] := by
  obtain ⟨l, c, r, hl, _, _, ht⟩ := ha.turn
  rcases ht.waiting hx hp with hx | ⟨rfl, hid, d, hd, hsend, hlog⟩
  · have hne := hr.sound.cycle_ne hl x hx
    have hx := mem_live_of_ne hl hx
    have hspares := ht.spares (s := s.wait _) hl (.inl (hr.sound.each x hx).named) (Ne.symm hne)
    exact (h.begun x hx _ _ _ hp).still ha.moves hspares.history
  · have hf : (s.wait (s.wakeTime c)).bench.Follows :=
      let h := hr.follows
      ⟨h.calls, h.sends, h.transport⟩
    rw [hid]
    exact sentBy_send hf hd ht.grows hsend hlog

/-- A tick that ends does so as its own send says. -/
theorem Fates.each_advances (h : s.Fates) (hatt : s.Attends) (ha : Advances target s s')
    (hy : s'.bench.transport.sends[send]? = some y) : s'.Fate send y := by
  have hm := ha.moves
  by_cases hlen : send < s.bench.transport.sends.length
  · rw [ha.getElem?_sends hlen] at hy
    cases h.each _ _ hy with
    | @awaited x deadline late hx hp =>
      rcases ha.tick hatt.reachable.sound hx hp with ⟨hx', _⟩ | ⟨_, hnow, more, hmore⟩
      · exact .awaited hx' hp
      · obtain ⟨z, hz, _, hends⟩ := hatt.ending_eq hx hp
        cases hy.symm.trans hz
        refine .ended ?_ (Nat.le_of_eq hnow.symm) ((h.begun x hx _ _ _ hp).grow hm hmore)
        rw [hm.cadence_eq, hm.grows.script, hends]
    | ended hend hn hsent =>
      exact Fate.moves_ended hatt.reachable hm hy ((ha.getElem?_sends hlen).trans hy) hend hn hsent
  · obtain ⟨l, c, r, _, _, _, ht⟩ := ha.turn
    obtain ⟨x, hx, deadline, late, hp⟩ := ht.sends_new hy (Nat.le_of_not_lt hlen)
    exact .awaited hx hp

theorem Fates.credited_advances (h : s.Fates) (hatt : s.Attends) (ha : Advances target s s')
    (he : e ∈ s'.bench.log) (hd : e.event.isDelivery = true) : s'.Credited e := by
  have hm := ha.moves
  obtain ⟨l, c, r, hl, _, _, ht⟩ := ha.turn
  rcases ht.delivers he hd with he | ⟨deadline, late, send, hp, ho, rfl⟩
  · exact (h.credited e he hd).moves hm
  · have hc : c ∈ s.live := by simp [hl]
    obtain ⟨more, hmore⟩ := ht.tick hp
    rw [ho] at hmore
    have hsent := (h.begun c hc _ _ _ hp).grow hm hmore
    -- the success that was polled is what was heard of the send
    have ho : (s.ending c deadline late send).2 = .success := ho
    obtain ⟨x, hx, _, hends⟩ := hatt.ending_eq hc hp
    obtain ⟨y, hy, hsuccess, htime⟩ := Sent.exists_heard (hends ▸ ho)
    have hheard : s.heard? send = some y := by
      rw [heard?, hx]
      exact hy
    have htold : (⟨(s.wait (s.wakeTime c)).bench.now, c.attempt.verdict .success⟩ : Entry) =
        ⟨y.time, c.attempt.verdict .success⟩ := by
      rw [now_wait_wakeTime hatt.reachable.sound hc hp, hends, htime]
    exact ⟨send, y, c.attempt, more, hm.heard?_some hheard, hsuccess, htold, hsent⟩

theorem Fates.advances (h : s.Fates) (hatt : s.Attends) (ha : Advances target s s') :
    s'.Fates where
  begun _ hx _ _ _ hp := h.begun_advances hatt.reachable ha hx hp
  each _ _ hy := h.each_advances hatt ha hy
  credited _ he hd := h.credited_advances hatt ha he hd

theorem Fates.passes (h : s.Fates) (hatt : s.Attends) (hp : Passes target s s') : s'.Fates := by
  induction hp with
  | rest => exact h
  | step ha _ ih => exact ih (h.advances hatt ha) (hatt.advances ha)

/-! ## What arms a slow refresh -/

/-- A slow refresh is armed right as a delivery is told of. -/
theorem Reachable.rearming (h : Reachable s) {time id delay : Nat} {older : List Entry}
    (harm : ⟨time, .armed id .slowRefresh delay⟩ :: older <:+ s.bench.log) :
    ∃ cycle kind tick, ∃ older', older = ⟨time, .delivered cycle kind tick⟩ :: older' := by
  have skip : ∀ {k : Nat} {e : Event} {log : List Entry}, e.arms .slowRefresh = false →
      ⟨time, .armed id .slowRefresh delay⟩ :: older <:+ ⟨k, e⟩ :: log →
      ⟨time, .armed id .slowRefresh delay⟩ :: older <:+ log := by
    intro k e log he hs
    rcases List.suffix_cons_iff.mp hs with heq | hs
    · rw [← (Entry.mk.inj (List.cons.inj heq).1).2] at he
      cases he
    · exact hs
  induction h with
  | fresh => cases List.suffix_nil.mp harm
  | move _ hm ih =>
    cases hm.effect with
    | started | refreshed => exact ih (skip rfl harm)
    | noted he => exact ih (skip (Event.arms_of_cycle? he _) harm)
    | shutDown | unchanged | released | waited => exact ih harm
    | polled _ _ ht =>
      cases ht with
      | cancelled | exhausted | sent => exact ih (skip rfl harm)
      | unsent | retried | delivered => exact ih (skip (Attempt.arms_verdict _ _ _) harm)
      | notRearmed => exact ih (skip (Attempt.arms_verdict _ _ _) (skip rfl harm))
      | rearmed =>
        rcases List.suffix_cons_iff.mp harm with heq | hs
        · obtain ⟨he, rfl⟩ := List.cons.inj heq
          cases he
          exact ⟨_, _, _, _, rfl⟩
        · exact ih (skip (Attempt.arms_verdict _ _ _) hs)

end Fates

end Scheduler

open Scheduler

namespace Simulation

variable {m m' : Simulation} {step : Step} {steps : List Step} {returned : Option Bool}
  {reports : List Report}

theorem Takes.attends (h : m.scheduler.Attends) (hpunctual : m.scheduler.Punctual)
    (ht : Takes m step returned m') : m'.scheduler.Attends ∧ m'.scheduler.Punctual := by
  have hsound := h.reachable.sound
  have called (hcall : step.isCall = true) : m'.scheduler.Attends ∧ m'.scheduler.Punctual := by
    obtain ⟨hnow, htr, hquiet⟩ := ht.call hsound hcall
    have hm := ht.moves hsound
    refine ⟨⟨h.reachable.moves hm, fun c hc deadline late send hp => ?_⟩,
      fun c hc deadline late send hp => ?_⟩
    · rw [htr, hm.cadence_eq]
      exact h.attentive c (hquiet.waiting c hc _ _ _ hp) _ _ _ hp
    · rw [htr, hm.cadence_eq, hnow]
      exact hpunctual c (hquiet.waiting c hc _ _ _ hp) _ _ _ hp
  have waited {ms : Nat} {s : Scheduler} (hp : Passes (m.scheduler.bench.now + ms) m.scheduler s) :
      (s.wait (m.scheduler.bench.now + ms)).Attends ∧
        (s.wait (m.scheduler.bench.now + ms)).Punctual := by
    have hatt : (s.wait (m.scheduler.bench.now + ms)).Attends :=
      (h.passes hp).wait fun c hc => Nat.le_of_lt (hp.atRest c hc)
    refine ⟨hatt, hatt.punctual fun c hc => ?_⟩
    have hnow : (s.wait (m.scheduler.bench.now + ms)).bench.now = m.scheduler.bench.now + ms :=
      Nat.max_eq_right (hp.now_le (Nat.le_add_right _ _))
    rw [hnow]
    exact hp.atRest c hc
  cases ht with
  | start | stop | refresh | drop => exact called rfl
  | release r => exact h.release hpunctual r
  | sleep hp | waitsInVain _ hp => exact waited hp
  | drained => exact ⟨h, hpunctual⟩
  | drains _ hp hs =>
    refine ⟨h.passes hp, fun c hc => ?_⟩
    rw [(isDrained_iff.mp hs).2] at hc
    cases hc

theorem Takes.fates (h : m.scheduler.Fates) (hatt : m.scheduler.Attends)
    (ht : Takes m step returned m') : m'.scheduler.Fates := by
  have hr := hatt.reachable
  have hm := ht.moves hr.sound
  have waited {ms : Nat} {s : Scheduler} (hp : Passes (m.scheduler.bench.now + ms) m.scheduler s) :
      (s.wait (m.scheduler.bench.now + ms)).Fates :=
    (h.passes hatt hp).quiet (hr.moves hp.moves)
      (.single (.wait _ fun c hc => Nat.le_of_lt (hp.atRest c hc))) (.wait _ _)
  have called (hcall : step.isCall = true) : m'.scheduler.Fates :=
    h.quiet hr hm (ht.call hr.sound hcall).2.2
  cases ht with
  | start | stop | refresh | drop => exact called rfl
  | release r => exact h.quiet hr hm (.release _ r)
  | sleep hp | waitsInVain _ hp => exact waited hp
  | drained => exact h
  | drains _ hp => exact h.passes hatt hp

/-- Every send of a run has its fate, and every delivery its own send. -/
theorem Runs.fates (h : m.scheduler.Fates) (hatt : m.scheduler.Attends)
    (hpunctual : m.scheduler.Punctual) (hr : Runs m steps reports m') :
    m'.scheduler.Fates ∧ m'.scheduler.Attends := by
  induction hr with
  | nil => exact ⟨h, hatt⟩
  | cons ht _ ih =>
    obtain ⟨hatt', hpunctual'⟩ := ht.attends hatt hpunctual
    exact ih (ht.fates h hatt) hatt' hpunctual'

end Simulation
end Heartbeat
