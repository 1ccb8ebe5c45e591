import Heartbeat.Proofs.Flow

/-!
# Heartbeat.Proofs.Scripts

The bench goes by its scripts, and the log accounts for it.

* `Replied`           — the answer to a send is the one its reply has in store.
* `Transport.Follows` — the sends take the replies of the script one after another.
* `Bench.Follows`     — descriptors built and sends made are counted by the log, so an entry tells
  which of them is its own.
* `Reachable.follows` — it is so in every reachable state.
-/

namespace Heartbeat

/-- What is known of the answer to a send made at `time`. -/
inductive Replied (time : Nat) : Reply → Option Settlement → Prop where
  | after {delay : Nat} {answer : Answer} :
      Replied time (.after delay answer) (some ⟨time + delay, answer⟩)
  | held {delay : Nat} : Replied time (.hold delay) none
  | released {delay : Nat} {a : Settlement} :
      time + delay ≤ a.time → Replied time (.hold delay) (some a)

namespace Transport

variable {t t' : Transport}

/-- A send is held back as its reply asks. -/
def Holds (t : Transport) (h : Held) : Prop :=
  ∃ x delay, t.sends[h.send]? = some x ∧ t.script.item h.send = .hold delay ∧
    h.since = x.time + delay

theorem Holds.keep {h : Held} {now : Nat} (hh : t.Holds h) (hs : KeepsSends now t.sends t'.sends)
    (hi : t'.script.item = t.script.item) : t'.Holds h := by
  obtain ⟨x, delay, hx, hr, hd⟩ := hh
  obtain ⟨y, hy, htime, _⟩ := hs _ x hx
  exact ⟨y, delay, hy, hi ▸ hr, by rw [htime, hd]⟩

structure Follows (t : Transport) : Prop where
  taken : t.script.taken = t.sends.length
  replied : ∀ (n : Nat) (x : Sent), t.sends[n]? = some x →
    Replied x.time (t.script.item n) x.settlement
  held : ∀ h ∈ t.held, t.Holds h

theorem Follows.send (h : t.Follows) (now : Nat) (d : Descriptor) : (t.send now d).Follows where
  taken := by simp [Transport.send, Script.advance, h.taken]
  replied n x hx := by
    simp only [Transport.send, List.getElem?_append, List.getElem?_singleton] at hx
    split at hx
    · exact h.replied n x hx
    · split at hx
      · have hn : n = t.script.taken := by have := h.taken; omega
        cases hx
        subst hn
        simp only [Transport.send, Script.item_advance, Script.next_eq_item]
        cases t.script.item t.script.taken with
        | after => exact .after
        | hold => exact .held
      · cases hx
  held k hk := by
    have keep : ∀ k ∈ t.held, (t.send now d).Holds k := fun k hk =>
      (h.held k hk).keep (KeepsSends.append now _ _) rfl
    have hr : t.script.item t.sends.length = t.script.next := by
      rw [Script.next_eq_item, h.taken]
    cases hn : t.script.next with
    | after delay answer => exact keep k (by simpa [Transport.send, hn] using hk)
    | hold delay =>
      simp only [Transport.send, hn, List.mem_append, List.mem_singleton] at hk
      rcases hk with hk | rfl
      · exact keep k hk
      · exact ⟨⟨now, d, t.script.next.settlement now⟩, delay,
          by simp only [Transport.send, List.getElem?_concat_length], hr.trans hn, rfl⟩

/-- Settling a send that is held back, once that is over. -/
theorem Follows.settle (h : t.Follows) {a : Settlement} {k : Held} (hk : t.Holds k)
    (ha : k.since ≤ a.time) : (t.settle a k.send).Follows where
  taken := by simp [Transport.settle, h.taken]
  replied n x hx := by
    by_cases hn : k.send = n
    · subst hn
      obtain ⟨y, delay, hy, hr, hd⟩ := hk
      simp only [Transport.settle, List.getElem?_modify_eq, hy, Option.map_eq_map,
        Option.map_some, Option.some.injEq] at hx
      subst hx
      have hold := h.replied _ y hy
      -- an answer that is there already stays
      cases hs : y.settlement with
      | some b => simpa [Transport.settle, hs] using hold
      | none =>
        simp only [Transport.settle, hr, Option.none_or]
        exact .released (hd ▸ ha)
    · simp only [Transport.settle, List.getElem?_modify, if_neg hn, Option.map_eq_map,
        Option.map_id'] at hx
      exact h.replied n x hx
  held j hj := (h.held j hj).keep (KeepsSends.settle t (Nat.zero_le a.time) k.send) rfl

theorem Follows.settleAll {a : Settlement} {due : List Held} (h : t.Follows)
    (hd : ∀ k ∈ due, t.Holds k ∧ k.since ≤ a.time) :
    (due.foldl (fun t k => t.settle a k.send) t).Follows := by
  induction due generalizing t with
  | nil => exact h
  | cons k due ih =>
    obtain ⟨hk, ha⟩ := hd k (List.mem_cons_self ..)
    refine ih (h.settle hk ha) fun j hj => ?_
    obtain ⟨hj', ha'⟩ := hd j (List.mem_cons_of_mem _ hj)
    exact ⟨hj'.keep (KeepsSends.settle t (Nat.zero_le a.time) k.send) rfl, ha'⟩

theorem Follows.release (h : t.Follows) (now : Nat) (r : Reply) : (t.release now r).Follows := by
  cases r with
  | hold delay => exact h
  | after delay answer =>
    have hd : ∀ k ∈ t.held.filter (·.since ≤ now), t.Holds k ∧ k.since ≤ now := by
      intro k hk
      simp only [List.mem_filter, decide_eq_true_eq] at hk
      exact ⟨h.held k hk.1, hk.2⟩
    have hall := h.settleAll (a := ⟨now, answer⟩) hd
    exact ⟨hall.taken, hall.replied, fun k hk =>
      (h.held k (List.mem_filter.mp hk).1).keep (KeepsSends.release now t (.after delay answer))
        (congrArg Script.item (script_release t now _))⟩

end Transport

/-! ## What the log counts -/

/-- Whether an event tells of an attempt to build a descriptor. -/
def Event.isCall : Event → Bool
  | .sending .. => true
  | .failed _ _ _ f => f.obstacle = .descriptor
  | _ => false

def Event.isSending : Event → Bool
  | .sending .. => true
  | _ => false

namespace Entry

/-- How many descriptors were asked for. -/
def calls (log : List Entry) : Nat := log.countP (·.event.isCall)

/-- How many were sent. -/
def sendings (log : List Entry) : Nat := log.countP (·.event.isSending)

end Entry

structure Bench.Follows (b : Bench) : Prop where
  calls : b.factory.taken = Entry.calls b.log
  sends : b.transport.sends.length = Entry.sendings b.log
  transport : b.transport.Follows

/-- The descriptor built next is the one after as many as the log counts. -/
theorem Bench.Follows.item_calls {b : Bench} (h : b.Follows) :
    b.factory.item (Entry.calls b.log) = b.factory.next := by
  rw [← h.calls, Script.next_eq_item]

theorem Bench.Follows.note {b : Bench} (h : b.Follows) {e : Event} (hc : e.isCall = false)
    (hs : e.isSending = false) : (b.note e).Follows where
  calls := by simpa [Entry.calls, hc] using h.calls
  sends := by simpa [Entry.sendings, hs] using h.sends
  transport := h.transport

theorem Event.isCall_of_cycle? {e : Event} (h : e.cycle? = none) :
    e.isCall = false ∧ e.isSending = false := by
  cases e <;> first | exact ⟨rfl, rfl⟩ | cases h

@[simp] theorem Attempt.isSending_verdict (a : Attempt) (o : Outcome) :
    (a.verdict o).isSending = false := by
  cases o <;> rfl

/-- No answer says that a descriptor could not be built. -/
theorem Answer.outcome_ne_descriptor (a : Answer) (message : String) :
    a.outcome ≠ .fail .descriptor message := by
  cases a with
  | body b =>
    simp only [Answer.outcome, Outcome.ofBody, Acknowledgement.outcome]
    split
    · simp [Outcome.fail]
    · split
      · split <;> simp [Outcome.fail]
      · simp [Outcome.fail]
  | error | dropped => simp [Answer.outcome, Outcome.fail]

theorem WaitEnds.ne_descriptor {began timeout lasted : Nat} {a : Option Settlement} {o : Outcome}
    (h : WaitEnds began timeout a lasted o) (message : String) :
    o ≠ .fail .descriptor message := by
  cases h with
  | answered => exact Answer.outcome_ne_descriptor _ _
  | unanswered => simp [Outcome.fail]

theorem Attempt.isCall_verdict {o : Outcome} (a : Attempt)
    (h : ∀ message, o ≠ .fail .descriptor message) : (a.verdict o).isCall = false := by
  cases o with
  | success | timeout => rfl
  | failure f =>
    refine decide_eq_false fun hf => h f.message ?_
    rw [Outcome.fail, ← hf]

namespace Scheduler

variable {s s' : Scheduler}

theorem Turn.follows {l r : List LiveCycle} {c : LiveCycle} (h : s.bench.Follows)
    (ht : Turn s l c r s') : s'.bench.Follows := by
  have verdict : ∀ {deadline late send : Nat} {o : Outcome},
      (s.ending c deadline late send).2 = o → (s.bench.note (c.attempt.verdict o)).Follows := by
    rintro deadline late send o rfl
    exact h.note (c.attempt.isCall_verdict (waitEnds_conclude _ _ _).ne_descriptor) (by simp)
  cases ht with
  | cancelled | exhausted => exact h.note rfl rfl
  | unsent =>
    refine ⟨?_, by simpa [Entry.sendings] using h.sends, h.transport⟩
    simpa [Entry.calls, Attempt.verdict, Outcome.fail, Event.isCall, Script.advance] using h.calls
  | sent =>
    refine ⟨?_, ?_, h.transport.send _ _⟩
    · simpa [Entry.calls, Event.isCall, Script.advance] using h.calls
    · simpa [Entry.sendings, Event.isSending, Transport.send] using h.sends
  | retried _ ho | delivered _ ho => exact verdict ho
  | rearmed _ ho | notRearmed _ ho => exact (verdict ho).note rfl rfl

theorem Move.follows (h : s.bench.Follows) (hm : Move s s') : s'.bench.Follows := by
  cases hm.effect with
  | started | refreshed => exact h.note rfl rfl
  | noted he => exact h.note (Event.isCall_of_cycle? he).1 (Event.isCall_of_cycle? he).2
  | shutDown | unchanged => exact h
  | waited => exact ⟨h.calls, h.sends, h.transport⟩
  | released r =>
    refine ⟨h.calls, ?_, h.transport.release _ r⟩
    exact (Transport.sends_length_release _ _ r).trans h.sends
  | polled _ _ ht => exact ht.follows h

theorem Reachable.follows (h : Reachable s) : s.bench.Follows := by
  induction h with
  | fresh _ _ uncalled unasked =>
    exact ⟨uncalled, rfl, unasked, fun _ _ hx => (by cases hx), fun _ hk => (by cases hk)⟩
  | move _ hm ih => exact hm.follows ih

end Scheduler
end Heartbeat
