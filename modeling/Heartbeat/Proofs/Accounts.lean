import Heartbeat.Rehearsal
import Heartbeat.Proofs.Deliveries
import Mathlib.Algebra.BigOperators.Ring.Finset

/-!
# Heartbeat.Proofs.Accounts

What attempts that share a bench ask of it, whatever the order in which they take turns.

* `Bench.AsksOnce`    — one descriptor is asked for, and sent if there is one.
* `Ledger n b b'`     — so many have been asked for, and those that were built have been sent.
* `Rehearsal.booked`  — the attempts, each with the count of its own ticks.
* `Rehearsal.asked`   — how often the attempts ask in all: each for its sends and for the ticks
  within its tries.
* `Accounted.apply`   — a step keeps the books; `accounted_run` — so does a run.
-/

namespace Heartbeat

/-! ## The bench -/

/-- How many of the next descriptors asked for cannot be built. -/
def Script.failures (s : Script (Except ErrorChain Descriptor)) (n : Nat) : Nat :=
  (List.range n).countP fun k => !(s.item (s.taken + k)).isOk

theorem Script.failures_succ (s : Script (Except ErrorChain Descriptor)) (n : Nat) :
    s.failures (n + 1) = s.failures n + if (s.item (s.taken + n)).isOk then 0 else 1 := by
  rw [failures, List.range_succ, List.countP_append, List.countP_singleton]
  cases (s.item (s.taken + n)).isOk <;> rfl

/-- One descriptor is asked for, and sent once if it was built. -/
structure Bench.AsksOnce (b b' : Bench) : Prop where
  factory : b'.factory = b.factory.advance
  transport : b'.transport =
    match b.factory.next with
    | .ok d => b.transport.send b.now d
    | .error _ => b.transport

namespace Attempt

theorem asksOnce_sendOnce (a : Attempt) (b : Bench) : b.AsksOnce (a.sendOnce b).2 := by
  cases h : b.factory.next with
  | error chain =>
    rw [sendOnce_of_error h]
    exact ⟨rfl, by rw [h]⟩
  | ok d =>
    rw [sendOnce_of_ok h]
    exact ⟨rfl, by rw [h]; rfl⟩

theorem asksOnce_tick {a : Attempt} {b : Bench} (h : a.maxTries.allows a.count.ticks = true) :
    b.AsksOnce (a.tick b).2.2 := by
  rw [tick_of_allowed h]
  obtain ⟨factory, transport⟩ := a.asksOnce_sendOnce b
  exact ⟨factory, transport⟩

end Attempt

/-- Between two benches so many descriptors have been asked for, and those that were built have been
sent. -/
structure Ledger (n : Nat) (b b' : Bench) : Prop where
  item : b'.factory.item = b.factory.item
  taken : b'.factory.taken = b.factory.taken + n
  sends : b'.transport.sends.length + b.factory.failures n = b.transport.sends.length + n

namespace Ledger

variable {n : Nat} {b b' b'' : Bench}

theorem refl (b : Bench) : Ledger 0 b b := ⟨rfl, rfl, rfl⟩

theorem keep (h : Ledger n b b') (hf : b''.factory = b'.factory)
    (hs : b''.transport.sends.length = b'.transport.sends.length) : Ledger n b b'' :=
  ⟨by rw [hf, h.item], by rw [hf, h.taken], by rw [hs, h.sends]⟩

theorem asks (h : Ledger n b b') (ha : b'.AsksOnce b'') : Ledger (n + 1) b b'' where
  item := by rw [ha.factory, Script.item_advance, h.item]
  taken := by rw [ha.factory, Script.advance, h.taken]; rfl
  sends := by
    have hsends := h.sends
    have hnext : b.factory.item (b.factory.taken + n) = b'.factory.next := by
      rw [Script.next_eq_item, h.item, h.taken]
    rw [Script.failures_succ, hnext, ha.transport]
    cases b'.factory.next with
    | error chain =>
      simp only [Except.isOk, Except.toBool, Bool.false_eq_true, if_false]
      omega
    | ok d =>
      simp only [Except.isOk, Except.toBool, if_true, Transport.send, List.length_append,
        List.length_singleton]
      omega

end Ledger

/-! ## Calls -/

/-- How many of so many ticks are within the tries. -/
def MaxTries.within : MaxTries → Nat → Nat
  | .unbounded, k => k
  | .limited n _, k => min k n

/-- A limit is a word of 32 bits. -/
def MaxTries.IsWord : MaxTries → Prop
  | .unbounded => True
  | .limited n _ => n < UInt32.size

theorem MaxTries.within_zero (m : MaxTries) : m.within 0 = 0 := by
  cases m with
  | unbounded => rfl
  | limited n pos => exact Nat.zero_min n

theorem MaxTries.within_succ (m : MaxTries) (k : Nat) :
    m.within (k + 1) = m.within k + if m.allows (k + 1) then 1 else 0 := by
  cases m with
  | unbounded => rfl
  | limited n pos =>
    simp only [within, allows, decide_eq_true_eq]
    split <;> omega

/-- The count of ticks stops long after any limit. -/
theorem MaxTries.allows_min {m : MaxTries} (h : m.IsWord) (k : Nat) :
    m.allows (min k Attempt.greatestTicks) = m.allows k := by
  cases m with
  | unbounded => rfl
  | limited n pos =>
    have hg : UInt32.size < Attempt.greatestTicks := by decide
    have hn : n < UInt32.size := h
    simp only [allows, decide_eq_decide]
    omega

theorem MaxTries.allows_eq_false_iff {m : MaxTries} {k : Nat} :
    m.allows k = false ↔ ∃ n pos, m = .limited n pos ∧ n < k := by
  cases m with
  | unbounded => simp [allows]
  | limited n pos => simp [allows, pos]

/-- An attempt that has taken so many ticks since it was new. -/
def Attempt.counted (a : Attempt) (k : Nat) : Attempt := { a with ticks := min k greatestTicks }

theorem Attempt.counted_zero {a : Attempt} (h : a.ticks = 0) : a.counted 0 = a := by
  rw [counted, Nat.zero_min, ← h]

theorem Attempt.count_counted (a : Attempt) (k : Nat) :
    (a.counted k).count = a.counted (k + 1) := by
  simp only [count, counted, Attempt.mk.injEq, true_and]
  omega

theorem Attempt.allows_counted {a : Attempt} (h : a.maxTries.IsWord) (k : Nat) :
    (a.counted k).maxTries.allows (a.counted k).count.ticks = a.maxTries.allows (k + 1) := by
  rw [count_counted]
  exact MaxTries.allows_min h (k + 1)

namespace Rehearsal

def Step.isTick (i : Nat) : Step → Bool
  | .tick j => i == j
  | _ => false

def Step.isSendOnce (i : Nat) : Step → Bool
  | .sendOnce j => i == j
  | _ => false

/-- How many ticks of an attempt the steps ask for. -/
def tickCalls (i : Nat) (steps : List Step) : Nat := steps.countP (Step.isTick i)

/-- How many sends of it outside any tick. -/
def sendCalls (i : Nat) (steps : List Step) : Nat := steps.countP (Step.isSendOnce i)

theorem tickCalls_concat (i : Nat) (steps : List Step) (s : Step) :
    tickCalls i (steps ++ [s]) = tickCalls i steps + if s.isTick i then 1 else 0 := by
  rw [tickCalls, List.countP_append, List.countP_singleton]; rfl

theorem sendCalls_concat (i : Nat) (steps : List Step) (s : Step) :
    sendCalls i (steps ++ [s]) = sendCalls i steps + if s.isSendOnce i then 1 else 0 := by
  rw [sendCalls, List.countP_append, List.countP_singleton]; rfl

variable {r r' : Rehearsal} {steps : List Step} {s : Step} {i : Nat} {a : Attempt}

theorem apply_tick (ha : r.attempts[i]? = some a) :
    r.apply (.tick i) = (.ticked (a.tick r.bench).1,
      { bench := (a.tick r.bench).2.2, attempts := r.attempts.set i a.count }) := by
  simp only [apply, ha, Attempt.tick_attempt]

theorem apply_sendOnce (ha : r.attempts[i]? = some a) :
    r.apply (.sendOnce i) = (.sent (a.sendOnce r.bench).1,
      { r with bench := (a.sendOnce r.bench).2 }) := by
  simp only [apply, ha]

/-- The attempts after some steps, if they were new before: each has counted its own ticks. -/
def booked (r : Rehearsal) (steps : List Step) : List Attempt :=
  r.attempts.mapIdx fun i a => a.counted (tickCalls i steps)

theorem getElem?_booked (r : Rehearsal) (steps : List Step) (i : Nat) :
    (r.booked steps)[i]? = r.attempts[i]?.map (·.counted (tickCalls i steps)) :=
  List.getElem?_mapIdx

theorem booked_of_not_tick (hs : ∀ i < r.attempts.length, s.isTick i = false) :
    r.booked (steps ++ [s]) = r.booked steps := by
  refine List.ext_getElem? fun i => ?_
  rw [getElem?_booked, getElem?_booked]
  cases ha : r.attempts[i]? with
  | none => rfl
  | some a =>
    have hi := (List.getElem?_eq_some_iff.mp ha).1
    simp [tickCalls_concat, hs i hi]

theorem booked_tick (ha : r.attempts[i]? = some a) :
    r.booked (steps ++ [.tick i]) =
      (r.booked steps).set i (a.counted (tickCalls i steps + 1)) := by
  refine List.ext_getElem? fun j => ?_
  rw [List.getElem?_set, getElem?_booked, getElem?_booked, tickCalls_concat]
  by_cases hj : i = j
  · subst hj
    obtain ⟨hi, rfl⟩ := List.getElem?_eq_some_iff.mp ha
    simp [Step.isTick, booked, hi]
  · simp [Step.isTick, hj, Ne.symm hj]

/-- How often an attempt asks for a descriptor: for its sends and for the ticks within its tries. -/
def share (r : Rehearsal) (steps : List Step) (i : Fin r.attempts.length) : Nat :=
  sendCalls i steps + r.attempts[i].maxTries.within (tickCalls i steps)

/-- How often all of them do. -/
def asked (r : Rehearsal) (steps : List Step) : Nat := ∑ i, r.share steps i

theorem share_of_not_call {i : Fin r.attempts.length} (ht : s.isTick i = false)
    (hs : s.isSendOnce i = false) : r.share (steps ++ [s]) i = r.share steps i := by
  simp [share, tickCalls_concat, sendCalls_concat, ht, hs]

/-- A call of one attempt adds to its share alone. -/
theorem asked_concat {i : Fin r.attempts.length} {n : Nat}
    (own : r.share (steps ++ [s]) i = r.share steps i + n)
    (others : ∀ j ≠ i, s.isTick j = false ∧ s.isSendOnce j = false) :
    r.asked (steps ++ [s]) = r.asked steps + n := by
  have each : ∀ j, r.share (steps ++ [s]) j = r.share steps j + if j = i then n else 0 := by
    intro j
    by_cases hj : j = i
    · rw [hj, own, if_pos rfl]
    · rw [share_of_not_call (others j hj).1 (others j hj).2, if_neg hj]; rfl
  simp only [asked, each, Finset.sum_add_distrib, Finset.sum_ite_eq', Finset.mem_univ, if_true]

theorem asked_tick (ha : r.attempts[i]? = some a) :
    r.asked (steps ++ [.tick i]) =
      r.asked steps + if a.maxTries.allows (tickCalls i steps + 1) then 1 else 0 := by
  obtain ⟨hi, rfl⟩ := List.getElem?_eq_some_iff.mp ha
  refine asked_concat (i := ⟨i, hi⟩) ?_ fun j hj => ⟨?_, rfl⟩
  · simp [share, tickCalls_concat, sendCalls_concat, Step.isTick, Step.isSendOnce,
      MaxTries.within_succ, Nat.add_assoc]
  · simpa [Step.isTick, Fin.ext_iff] using hj

theorem asked_sendOnce (hi : i < r.attempts.length) :
    r.asked (steps ++ [.sendOnce i]) = r.asked steps + 1 := by
  refine asked_concat (i := ⟨i, hi⟩) ?_ fun j hj => ⟨rfl, ?_⟩
  · simp [share, tickCalls_concat, sendCalls_concat, Step.isTick, Step.isSendOnce,
      Nat.add_right_comm]
  · simpa [Step.isSendOnce, Fin.ext_iff] using hj

/-- After some steps every attempt has counted its ticks, and the bench has been asked for all that
is their share. -/
structure Accounted (r : Rehearsal) (steps : List Step) (r' : Rehearsal) : Prop where
  attempts : r'.attempts = r.booked steps
  ledger : Ledger (r.asked steps) r.bench r'.bench

namespace Accounted

theorem getElem? (h : Accounted r steps r') (ha : r.attempts[i]? = some a) :
    r'.attempts[i]? = some (a.counted (tickCalls i steps)) := by
  rw [h.attempts, getElem?_booked, ha]; rfl

/-- A step that is no call of any attempt. -/
theorem idle (h : Accounted r steps r')
    (hs : ∀ i < r.attempts.length, s.isTick i = false ∧ s.isSendOnce i = false) {b : Bench}
    (hf : b.factory = r'.bench.factory)
    (hl : b.transport.sends.length = r'.bench.transport.sends.length) :
    Accounted r (steps ++ [s]) { r' with bench := b } := by
  have hbooked : r.booked (steps ++ [s]) = r.booked steps :=
    booked_of_not_tick fun i hi => (hs i hi).1
  have hasked : r.asked (steps ++ [s]) = r.asked steps :=
    Finset.sum_congr rfl fun i _ => share_of_not_call (hs i i.isLt).1 (hs i i.isLt).2
  exact ⟨h.attempts.trans hbooked.symm, hasked ▸ h.ledger.keep hf hl⟩

theorem tick (h : Accounted r steps r') (ha : r.attempts[i]? = some a) (word : a.maxTries.IsWord) :
    Accounted r (steps ++ [.tick i]) (r'.apply (.tick i)).2 := by
  rw [apply_tick (h.getElem? ha)]
  refine ⟨?_, ?_⟩
  · rw [Attempt.count_counted, h.attempts, booked_tick ha]
  · have hallows := Attempt.allows_counted word (tickCalls i steps)
    rw [asked_tick ha]
    cases hallow : a.maxTries.allows (tickCalls i steps + 1) with
    | true => exact h.ledger.asks (Attempt.asksOnce_tick (hallows.trans hallow))
    | false =>
      rw [Attempt.tick_of_not_allowed (hallows.trans hallow)]
      exact h.ledger

theorem sendOnce (h : Accounted r steps r') (ha : r.attempts[i]? = some a) :
    Accounted r (steps ++ [.sendOnce i]) (r'.apply (.sendOnce i)).2 := by
  rw [apply_sendOnce (h.getElem? ha)]
  refine ⟨?_, ?_⟩
  · rw [h.attempts, booked_of_not_tick fun _ _ => rfl]
  · rw [asked_sendOnce (List.getElem?_eq_some_iff.mp ha).1]
    exact h.ledger.asks (Attempt.asksOnce_sendOnce _ _)

/-- A step keeps the books. Calls of attempts that do not exist do nothing, and neither sleep nor
release asks for a descriptor. -/
theorem apply (h : Accounted r steps r') (words : ∀ a ∈ r.attempts, a.maxTries.IsWord) (s : Step) :
    Accounted r (steps ++ [s]) (r'.apply s).2 := by
  have absent {i j : Nat} (hn : r.attempts[i]? = none) (hj : j < r.attempts.length) :
      (j == i) = false := by
    rw [List.getElem?_eq_none_iff] at hn
    exact beq_false_of_ne (by omega)
  have hlen : r'.attempts.length = r.attempts.length := by
    rw [h.attempts, booked, List.length_mapIdx]
  cases s with
  | tick i =>
    cases ha : r.attempts[i]? with
    | some a => exact h.tick ha (words a (List.mem_of_getElem? ha))
    | none =>
      have ha' : r'.attempts[i]? = none := by simpa [hlen] using ha
      simp only [Rehearsal.apply, ha']
      exact h.idle (s := .tick i) (fun _ hj => ⟨absent ha hj, rfl⟩) rfl rfl
  | sendOnce i =>
    cases ha : r.attempts[i]? with
    | some a => exact h.sendOnce ha
    | none =>
      have ha' : r'.attempts[i]? = none := by simpa [hlen] using ha
      simp only [Rehearsal.apply, ha']
      exact h.idle (s := .sendOnce i) (fun _ hj => ⟨rfl, absent ha hj⟩) rfl rfl
  | sleep ms => exact h.idle (fun _ _ => ⟨rfl, rfl⟩) rfl rfl
  | release reply =>
    exact h.idle (fun _ _ => ⟨rfl, rfl⟩) rfl (Transport.sends_length_release _ _ _)

end Accounted

theorem run_concat (r : Rehearsal) (steps : List Step) (s : Step) :
    (r.run (steps ++ [s])).2 = ((r.run steps).2.apply s).2 := by
  induction steps generalizing r with
  | nil => rfl
  | cons s' steps ih => exact ih (r.apply s').2

theorem accounted_nil (new : ∀ a ∈ r.attempts, a.ticks = 0) : Accounted r [] r := by
  have hbooked : r.attempts = r.booked [] := by
    refine List.ext_getElem? fun i => ?_
    rw [getElem?_booked]
    cases ha : r.attempts[i]? with
    | none => rfl
    | some a => exact congrArg some (Attempt.counted_zero (new a (List.mem_of_getElem? ha))).symm
  have hasked : r.asked [] = 0 :=
    Finset.sum_eq_zero fun i _ => (Nat.zero_add _).trans r.attempts[i].maxTries.within_zero
  exact ⟨hbooked, hasked ▸ .refl r.bench⟩

/-- By induction on the steps, the last one last. -/
theorem accounted_run (new : ∀ a ∈ r.attempts, a.ticks = 0)
    (words : ∀ a ∈ r.attempts, a.maxTries.IsWord) (steps : List Step) :
    Accounted r steps (r.run steps).2 := by
  induction steps using List.reverseRecOn with
  | nil => exact accounted_nil new
  | append_singleton steps s ih =>
    rw [run_concat]
    exact ih.apply words s

theorem tickCalls_le_append (i : Nat) (steps more : List Step) :
    tickCalls i steps ≤ tickCalls i (steps ++ more) :=
  (List.sublist_append_left steps more).countP_le

/-- The next tick of an attempt finds the tries used up if there are fewer of them than ticks. -/
theorem Accounted.exhausted_iff (h : Accounted r steps r') (ha : r.attempts[i]? = some a)
    (word : a.maxTries.IsWord) :
    (r'.apply (.tick i)).1 = .ticked .exhausted ↔
      ∃ n pos, a.maxTries = .limited n pos ∧ n < tickCalls i steps + 1 := by
  rw [apply_tick (h.getElem? ha), Returned.ticked.injEq, Attempt.tick_exhausted_iff,
    Attempt.allows_counted word, MaxTries.allows_eq_false_iff]

/-- **Attempts that share a bench keep their own accounts.** Whatever the order of their calls, each
counts its own ticks, up to where the count stops, and is exhausted at every tick beyond its limit.
A tick that is not exhausted, and a send outside any, asks for one descriptor and sends it if there
is one; an exhausted tick leaves the bench as it was. So the sends are what the attempts have asked
for, each its calls of send and the ticks within its tries, less what could not be built. -/
theorem attempts_are_accounted (new : ∀ a ∈ r.attempts, a.ticks = 0)
    (words : ∀ a ∈ r.attempts, a.maxTries.IsWord) (steps : List Step) :
    let r' := (r.run steps).2
    (∀ i a, r.attempts[i]? = some a →
      let tick := r'.apply (.tick i)
      r'.attempts[i]? = some { a with ticks := min (tickCalls i steps) (UInt64.size - 1) } ∧
      (tick.1 = .ticked .exhausted ↔
        ∃ n pos, a.maxTries = .limited n pos ∧ n < tickCalls i steps + 1) ∧
      (tick.1 = .ticked .exhausted → tick.2.bench = r'.bench ∧
        ∀ more, ((r.run (steps ++ more)).2.apply (.tick i)).1 = .ticked .exhausted) ∧
      (tick.1 ≠ .ticked .exhausted → r'.bench.AsksOnce tick.2.bench) ∧
      r'.bench.AsksOnce (r'.apply (.sendOnce i)).2.bench) ∧
    r'.bench.factory.taken = r.bench.factory.taken + r.asked steps ∧
    r'.bench.transport.sends.length + r.bench.factory.failures (r.asked steps) =
      r.bench.transport.sends.length +
        ∑ i : Fin r.attempts.length,
          (sendCalls i steps + r.attempts[i].maxTries.within (tickCalls i steps)) := by
  intro r'
  have h := accounted_run new words steps
  refine ⟨fun i a ha => ?_, h.ledger.taken, h.ledger.sends⟩
  have word := words a (List.mem_of_getElem? ha)
  have ha' := h.getElem? ha
  have hexhausted := h.exhausted_iff ha word
  refine ⟨ha', hexhausted, fun hex => ⟨?_, fun more => ?_⟩, fun hne => ?_, ?_⟩
  · rw [apply_tick ha', Returned.ticked.injEq, Attempt.tick_exhausted_iff] at hex
    rw [apply_tick ha', Attempt.tick_of_not_allowed hex]
  · obtain ⟨n, pos, hlimit, hn⟩ := hexhausted.mp hex
    have hle := tickCalls_le_append i steps more
    exact ((accounted_run new words (steps ++ more)).exhausted_iff ha word).mpr
      ⟨n, pos, hlimit, by omega⟩
  · rw [apply_tick ha', ne_eq, Returned.ticked.injEq, Attempt.tick_exhausted_iff,
      Bool.not_eq_false] at hne
    rw [apply_tick ha']
    exact Attempt.asksOnce_tick hne
  · rw [apply_sendOnce ha']
    exact Attempt.asksOnce_sendOnce _ _

/-- Two attempts, one with a single try, at a bench that cannot build the first descriptor. -/
def shared : Rehearsal where
  bench :=
    let b := (Simulation.sample [.hold 0] .ack).scheduler.bench
    { b with factory := { b.factory with entries := [.error ["hostname lookup failed"]] } }
  attempts := [⟨1, .adHoc, .limited 1 Nat.one_pos, 10, 0⟩, ⟨2, .fastBringup, .unbounded, 10, 0⟩]

def interleaved : List Step := [.tick 0, .sendOnce 0, .tick 1, .tick 0, .sleep 5, .tick 1]

/-- Of the five calls one finds its attempt exhausted and one has nothing to send. -/
theorem interleaved_calls_are_accounted :
    (shared.run interleaved).2.bench.transport.sends.length + 1 = 4 ∧
      ((shared.run interleaved).2.apply (.tick 0)).1 = .ticked .exhausted := by
  have words : ∀ a ∈ shared.attempts, a.maxTries.IsWord :=
    List.forall_mem_cons.mpr
      ⟨(by decide : 1 < UInt32.size), List.forall_mem_singleton.mpr trivial⟩
  obtain ⟨each, -, sends⟩ := attempts_are_accounted (r := shared) (by decide) words interleaved
  have failures : shared.bench.factory.failures (shared.asked interleaved) = 1 := by decide
  refine ⟨?_, (each 0 _ rfl).2.1.mpr ⟨1, by decide, rfl, by decide⟩⟩
  rw [failures] at sends
  exact sends

end Rehearsal
end Heartbeat
