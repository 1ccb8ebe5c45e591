import Heartbeat.Proofs.Held

/-!
# Heartbeat.Proofs.Deliveries

What a tick makes of the descriptor that it is given and of the answer that it hears.

* `Reply.heard?`, `Reply.lasts` — what a wait hears of a reply, and how long it lasts.
* `conclude_settlement`         — so says `conclude`.
* `tick_of_allowed`             — a tick within its tries is a send, counted and reported.
* `sendOnce_of_error`, `sendOnce_of_ok` — a send without a descriptor, and one with it.
* `Classified`                  — which outcome stands for what; `classified_ofSend` says that the
  outcome of a send is the right one.
-/

namespace Heartbeat

/-! ## Waits -/

namespace Reply

/-- The answer that a wait hears. One that comes as the time runs out is still heard, so what is
settled at the send is heard however short the time is. -/
def heard? (timeout : Nat) : Reply → Option Answer
  | .after delay answer => if delay ≤ timeout then some answer else none
  | .hold _ => none

/-- How long a wait lasts. -/
def lasts (timeout : Nat) : Reply → Nat
  | .after delay _ => min delay timeout
  | .hold _ => timeout

end Reply

/-- What becomes of a send. -/
def Outcome.ofSend : Except ErrorChain Descriptor → Option Answer → Outcome
  | .error chain, _ => .fail .descriptor chain.message
  | .ok _, some answer => answer.outcome
  | .ok _, none => .timeout

theorem conclude_settlement (began timeout : Nat) (d : Descriptor) (r : Reply) :
    conclude began timeout (r.settlement began) =
      (began + r.lasts timeout, .ofSend (.ok d) (r.heard? timeout)) := by
  cases r with
  | hold delay => rfl
  | after delay answer =>
    simp only [Reply.settlement, conclude, Reply.lasts, Reply.heard?, Nat.add_le_add_iff_left]
    split
    · rw [Nat.max_eq_right (Nat.le_add_right began delay), Nat.min_eq_left ‹_›]; rfl
    · rw [Nat.min_eq_right (by omega)]; rfl

/-- However a send comes to be settled, a wait for it ends as if its reply had settled it then. -/
theorem conclude_some (began timeout : Nat) (s : Settlement) :
    conclude began timeout (some s) =
      conclude began timeout ((Reply.after (s.time - began) s.answer).settlement began) := by
  have hcounts : s.time ≤ began + timeout ↔ began + (s.time - began) ≤ began + timeout := by omega
  have hends : max began s.time = max began (began + (s.time - began)) := by omega
  simp only [Reply.settlement, conclude, hcounts, hends]

namespace Transport

theorem settlement?_send (t : Transport) (now : Nat) (d : Descriptor) :
    (t.send now d).settlement? t.sends.length = t.script.next.settlement now := by
  simp [settlement?, send]

/-- A send that is held back and released at once is settled as one that is answered at once. -/
theorem settlement?_release_send {t : Transport} (h : t.script.next = .hold 0) (now : Nat)
    (d : Descriptor) (delay : Nat) (answer : Answer) :
    ((t.send now d).release now (.after delay answer)).settlement? t.sends.length =
      some ⟨now, answer⟩ := by
  have hdue : t.sends.length ∈
      ((t.held ++ [(⟨t.sends.length, now⟩ : Held)]).filter (·.since ≤ now)).map (·.send) :=
    List.mem_map.mpr ⟨⟨t.sends.length, now⟩, by simp, rfl⟩
  simp [settlement?, release, getElem?_settleAll, send, h, Reply.settlement, hdue,
    -List.filter_append]

end Transport

/-! ## Sends and ticks -/

/-- The bench once a descriptor has been sent. -/
def Bench.sent (b : Bench) (cycle : Nat) (d : Descriptor) : Bench :=
  { b.note (.sending cycle d.agentId) with
    factory := b.factory.advance
    transport := b.transport.send b.now d }

theorem Bench.send_of_ok {b : Bench} {d : Descriptor} (h : b.factory.next = .ok d) (cycle : Nat) :
    b.send cycle = (.ok b.transport.sends.length, b.sent cycle d) := by
  simp only [send, h]
  rfl

namespace Attempt

variable {a : Attempt} {b : Bench}

theorem count_cycle (a : Attempt) : a.count.cycle = a.cycle := rfl
theorem count_maxTries (a : Attempt) : a.count.maxTries = a.maxTries := rfl

/-- A tick that finds the tries used up does nothing but count. -/
theorem tick_of_not_allowed (h : a.maxTries.allows a.count.ticks = false) :
    a.tick b = (.exhausted, a.count, b) := by
  simp [tick, start, count_maxTries, h]

/-- A tick within its tries is a send, counted and reported. -/
theorem tick_of_allowed (h : a.maxTries.allows a.count.ticks = true) :
    a.tick b = (.ofOutcome (a.sendOnce b).1, a.count,
      a.count.report (a.sendOnce b).1 (a.sendOnce b).2) := by
  simp only [tick, start, sendOnce, count_cycle, count_maxTries, h, if_true]
  rcases b.send a.cycle with ⟨_ | _, _⟩ <;> rfl

theorem start_of_ok (h : a.maxTries.allows a.count.ticks = true) {d : Descriptor}
    (hd : b.factory.next = .ok d) :
    a.start b = (.sent b.transport.sends.length, a.count, b.sent a.cycle d) := by
  simp only [start, count_cycle, count_maxTries, h, if_true, Bench.send_of_ok hd]

theorem sendOnce_of_error {chain : ErrorChain} (h : b.factory.next = .error chain) :
    a.sendOnce b = (.ofSend b.factory.next (b.transport.script.next.heard? a.timeout),
      { b with factory := b.factory.advance }) := by
  simp only [sendOnce, Bench.send, h]
  rfl

theorem sendOnce_of_ok {d : Descriptor} (h : b.factory.next = .ok d) :
    a.sendOnce b = (.ofSend b.factory.next (b.transport.script.next.heard? a.timeout),
      (b.sent a.cycle d).moveTo (b.now + b.transport.script.next.lasts a.timeout)) := by
  have hends := conclude_settlement b.now a.timeout d b.transport.script.next
  simp only [sendOnce, Bench.send_of_ok h, Bench.awaits, Bench.sent, Bench.note_now,
    Transport.settlement?_send, hends, h]

theorem sendOnce_outcome (a : Attempt) (b : Bench) :
    (a.sendOnce b).1 =
      .ofSend b.factory.next (b.transport.script.next.heard? a.timeout) := by
  cases h : b.factory.next with
  | error chain => rw [sendOnce_of_error h, h]
  | ok d => rw [sendOnce_of_ok h, h]

theorem ofOutcome_eq (o : Outcome) :
    Tick.ofOutcome o = if o = .success then .succeeded else .retry := by
  cases o <;> rfl

theorem tick_exhausted_iff :
    (a.tick b).1 = .exhausted ↔ a.maxTries.allows a.count.ticks = false := by
  cases h : a.maxTries.allows a.count.ticks with
  | true =>
    rw [tick_of_allowed h, ofOutcome_eq]
    split <;> simp
  | false => simp [tick_of_not_allowed h]

/-- Whatever a tick does, it counts. -/
theorem tick_attempt (a : Attempt) (b : Bench) : (a.tick b).2.1 = a.count := by
  cases h : a.maxTries.allows a.count.ticks with
  | true => rw [tick_of_allowed h]
  | false => rw [tick_of_not_allowed h]

end Attempt

/-! ## Outcomes -/

theorem ofBody_of_ok {body : Bytes} {a : Acknowledgement}
    (h : Acknowledgement.decode body = .ok a) : Outcome.ofBody body = a.outcome := by
  cases body with
  | nil => cases h
  | cons => simp [Outcome.ofBody, h]

theorem ofBody_of_error {body : Bytes} {f : Json.Fault}
    (h : Acknowledgement.decode body = .error f) :
    Outcome.ofBody body = .fail .malformedResponse
      (if body.isEmpty then "empty response body" else f.message body) := by
  cases body with
  | nil => rfl
  | cons => simp [Outcome.ofBody, h]

/-- Which outcome stands for what, of a send for which a descriptor was built or not, and an answer
was heard or not. -/
structure Classified (built : Except ErrorChain Descriptor) (heard : Option Answer) (o : Outcome) :
    Prop where
  success : o = .success ↔
    (∃ d, built = .ok d) ∧ ∃ body, heard = some (.body body) ∧ Outcome.ofBody body = .success
  descriptor : ∀ text, o = .fail .descriptor text ↔
    ∃ chain, built = .error chain ∧ chain.message = text
  timeout : o = .timeout ↔ (∃ d, built = .ok d) ∧ heard = none
  transport : ∀ text, o = .fail .transport text ↔
    (∃ d, built = .ok d) ∧
      ((∃ chain, heard = some (.error chain) ∧ chain.message = text) ∨
        heard = some .dropped ∧ "transport dropped the request without completing it" = text)
  application : ∀ text, o = .fail .application text ↔
    (∃ d, built = .ok d) ∧
      ∃ body message, heard = some (.body body) ∧
        Acknowledgement.decode body = .ok ⟨false, message⟩ ∧
        message.getD "collector rejected descriptor" = text
  malformed : ∀ text, o = .fail .malformedResponse text ↔
    (∃ d, built = .ok d) ∧
      ∃ body f, heard = some (.body body) ∧ Acknowledgement.decode body = .error f ∧
        (if body.isEmpty then "empty response body" else f.message body) = text

/-- By cases through the layers: the descriptor, the wait, the answer and its body. -/
theorem classified_ofSend (built : Except ErrorChain Descriptor) (heard : Option Answer) :
    Classified built heard (.ofSend built heard) := by
  cases built with
  | error chain => constructor <;> simp [Outcome.ofSend, Outcome.fail]
  | ok d =>
    cases heard with
    | none => constructor <;> simp [Outcome.ofSend, Outcome.fail]
    | some answer =>
      cases answer with
      | error chain => constructor <;> simp [Outcome.ofSend, Answer.outcome, Outcome.fail]
      | dropped => constructor <;> simp [Outcome.ofSend, Answer.outcome, Outcome.fail]
      | body body =>
        cases hd : Acknowledgement.decode body with
        | ok a =>
          obtain ⟨success, message⟩ := a
          have ho := ofBody_of_ok hd
          cases success <;> constructor <;>
            simp [Outcome.ofSend, Answer.outcome, ho, hd, Acknowledgement.outcome, Outcome.fail]
        | error f =>
          have ho := ofBody_of_error hd
          constructor <;> simp [Outcome.ofSend, Answer.outcome, ho, hd, Outcome.fail]

/-- **No delivery is false and none is lost.** A tick within its tries succeeds when a descriptor
was built and a body that accepts it was heard in time; otherwise it is to be retried, and the
outcome that it reports tells why. It sends if there is something to send, and then lasts until the
reply comes or the time runs out; without a descriptor it takes no time. It does not matter what
settled a request: a wait ends as if the reply had done so at that time, and for one that is settled
before it is waited on, or as soon as it is made, as if it had been answered at once. -/
theorem no_delivery_is_false_or_lost (a : Attempt) (b : Bench)
    (allowed : a.maxTries.allows a.count.ticks = true) :
    let reply := b.transport.script.next
    (∃ o, Classified b.factory.next (reply.heard? a.timeout) o ∧ (a.sendOnce b).1 = o ∧
      (a.tick b).1 = (if o = .success then .succeeded else .retry) ∧
      (a.tick b).2.2.log.head? = some ⟨(a.tick b).2.2.now, a.count.verdict o⟩) ∧
    (∀ chain, b.factory.next = .error chain →
      (a.tick b).2.2.transport = b.transport ∧ (a.tick b).2.2.now = b.now) ∧
    (∀ d, b.factory.next = .ok d →
      (a.tick b).2.2.transport = b.transport.send b.now d ∧
      (a.tick b).2.2.now = b.now + reply.lasts a.timeout) ∧
    (∀ s : Settlement, conclude b.now a.timeout (some s) =
      conclude b.now a.timeout ((Reply.after (s.time - b.now) s.answer).settlement b.now)) ∧
    (∀ d delay answer, b.factory.next = .ok d → reply = .hold 0 →
      ((a.start b).2.2.release (.after delay answer)).awaits b.transport.sends.length b.now
          a.timeout =
        conclude b.now a.timeout ((Reply.after 0 answer).settlement b.now)) := by
  intro reply
  have htick := a.tick_of_allowed (b := b) allowed
  refine ⟨⟨_, classified_ofSend _ _, ?_, ?_, ?_⟩, ?_, ?_, ?_, ?_⟩
  · exact a.sendOnce_outcome b
  · rw [htick, a.sendOnce_outcome b]
    exact Attempt.ofOutcome_eq _
  · rw [htick, a.sendOnce_outcome b]
    rfl
  · intro chain h
    rw [htick, Attempt.sendOnce_of_error h]
    exact ⟨rfl, rfl⟩
  · intro d h
    rw [htick, Attempt.sendOnce_of_ok h]
    exact ⟨rfl, Nat.max_eq_right (Nat.le_add_right b.now _)⟩
  · exact conclude_some b.now a.timeout
  · intro d delay answer h hold
    rw [Attempt.start_of_ok allowed h]
    exact congrArg (conclude b.now a.timeout)
      (Transport.settlement?_release_send hold b.now d delay answer)

/-- An attempt that waits for no time at all. -/
def Attempt.hurried : Attempt := ⟨1, .adHoc, .limited 2 Nat.two_pos, 0, 0⟩

/-- It hears of a delivery that is acknowledged at once. -/
theorem hurried_tick_delivers :
    let b := (Simulation.sample [] .ack).scheduler.bench
    Attempt.hurried.maxTries.allows Attempt.hurried.count.ticks = true ∧
      (Attempt.hurried.tick b).1 = .succeeded ∧ (Attempt.hurried.tick b).2.2.now = 0 := by
  intro b
  have allowed : Attempt.hurried.maxTries.allows Attempt.hurried.count.ticks = true := by decide
  obtain ⟨⟨o, classified, -, htick, -⟩, -, hsent, -⟩ :=
    no_delivery_is_false_or_lost Attempt.hurried b allowed
  have delivered : o = .success := classified.success.mpr ⟨⟨_, rfl⟩, _, rfl, by decide⟩
  exact ⟨allowed, htick.trans (if_pos delivered), (hsent _ rfl).2⟩

end Heartbeat
