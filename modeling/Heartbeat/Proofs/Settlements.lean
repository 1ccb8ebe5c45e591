import Heartbeat.Proofs.Accounts

/-!
# Heartbeat.Proofs.Settlements

Every send is settled once, by its own reply or by a release.

* `Desk`              — a transport and the time; `Desk.run` is any mixture of sends and releases.
* `Desk.uses`         — which sends are settled on the way, one after another.
* `Transport.handOut` — a release taken literally: what is held is taken out, and each request is
  given the reply in its turn.
* `Kept`              — the invariant: what is held is what is not settled.
* `Moves.deals`, `deals_run` — schedulers and attempts do nothing else with a transport.
-/

namespace Heartbeat

/-- How late a reply is. -/
def Reply.delay : Reply → Nat
  | .after delay _ | .hold delay => delay

/-- Every reply is given as its request is sent. -/
def Script.IsPrompt (s : Script Reply) : Prop := ∀ r ∈ s.fallback :: s.entries, r.delay = 0

instance (s : Script Reply) : Decidable s.IsPrompt :=
  inferInstanceAs (Decidable (∀ r ∈ s.fallback :: s.entries, r.delay = 0))

theorem Script.IsPrompt.item {s : Script Reply} (h : s.IsPrompt) (n : Nat) :
    (s.item n).delay = 0 := by
  refine h _ ?_
  rw [Script.item, List.getD_eq_getElem?_getD]
  cases hn : s.entries[n]? with
  | none => exact List.mem_cons_self ..
  | some r => exact List.mem_cons_of_mem _ (List.mem_of_getElem? hn)

example : Script.IsPrompt ⟨[.ack, .nack, .refused, .garbage], .hold 0, 0⟩ := by decide

/-! ## Releases -/

/-- Gives a send that has no answer yet this one. -/
def Sent.given (a : Settlement) (x : Sent) : Sent :=
  { x with settlement := x.settlement.or (some a) }

namespace Transport

variable {t : Transport} {now delay : Nat} {answer : Answer}

/-- Gives a request that was held back a reply, which settles it or holds it back again. -/
def give (now : Nat) (r : Reply) (t : Transport) (h : Held) : Transport :=
  match r with
  | .after _ answer => t.settle ⟨now, answer⟩ h.send
  | .hold _ => { t with held := t.held ++ [h] }

/-- Takes all requests out that are held back, and gives each of them the reply in its turn. -/
def handOut (t : Transport) (now : Nat) (r : Reply) : Transport :=
  t.held.foldl (give now r) { t with held := [] }

/-- The sends without an answer, in order. -/
def unsettled (t : Transport) : List Nat :=
  (List.range t.sends.length).filter fun n => (t.settlement? n).isNone

theorem mem_unsettled {n : Nat} :
    n ∈ t.unsettled ↔ n < t.sends.length ∧ t.settlement? n = none := by
  simp [unsettled]

theorem foldl_give_hold (now delay : Nat) (hs : List Held) (t : Transport) :
    hs.foldl (give now (.hold delay)) t = { t with held := t.held ++ hs } := by
  induction hs generalizing t with
  | nil => simp
  | cons h hs ih =>
    rw [List.foldl_cons, ih]
    simp [give]

theorem foldl_give_after (now delay : Nat) (answer : Answer) (hs : List Held) (t : Transport) :
    hs.foldl (give now (.after delay answer)) { t with held := [] } =
      { hs.foldl (fun t h => t.settle ⟨now, answer⟩ h.send) t with held := [] } := by
  induction hs generalizing t with
  | nil => rfl
  | cons h hs ih => exact ih (t.settle ⟨now, answer⟩ h.send)

/-- A release of all that is held does what handing out does. -/
theorem release_eq_handOut (hp : ∀ h ∈ t.held, h.since ≤ now) (r : Reply) :
    t.release now r = t.handOut now r := by
  cases r with
  | hold delay => rw [handOut, foldl_give_hold]; rfl
  | after delay answer =>
    have hdue : t.held.filter (·.since ≤ now) = t.held :=
      List.filter_eq_self.mpr fun h hh => decide_eq_true (hp h hh)
    have hleft : t.held.filter (now < ·.since) = [] :=
      List.filter_eq_nil_iff.mpr fun h hh => by simpa using hp h hh
    rw [handOut, foldl_give_after, release]
    simp only [hdue, hleft]

theorem held_release (hp : ∀ h ∈ t.held, h.since ≤ now) :
    (t.release now (.after delay answer)).held = [] := by
  rw [release_eq_handOut hp, handOut, foldl_give_after]

/-! ### Which sends are settled -/

theorem settlement?_of_le {n : Nat} (hn : t.sends.length ≤ n) : t.settlement? n = none := by
  rw [settlement?, List.getElem?_eq_none hn, Option.bind_none]

theorem settlement?_of_getElem? {n : Nat} {x : Sent} (hx : t.sends[n]? = some x) :
    t.settlement? n = x.settlement := by
  rw [settlement?, hx, Option.bind_some]

theorem sends_length_send (t : Transport) (now : Nat) (d : Descriptor) :
    (t.send now d).sends.length = t.sends.length + 1 := by
  simp [send]

theorem settlement?_send_of_lt {n : Nat} (hn : n < t.sends.length) (now : Nat) (d : Descriptor) :
    (t.send now d).settlement? n = t.settlement? n := by
  simp [settlement?, send, List.getElem?_append_left hn]

/-- A send settles itself or nothing. -/
theorem settlement?_send_iff (t : Transport) (now : Nat) (d : Descriptor) (n : Nat)
    (a : Settlement) :
    (t.send now d).settlement? n = some a ↔ t.settlement? n = some a ∨
      n = t.sends.length ∧ t.script.next.settlement now = some a := by
  have hlen := t.sends_length_send now d
  rcases Nat.lt_trichotomy n t.sends.length with hn | rfl | hn
  · simp [settlement?_send_of_lt hn, Nat.ne_of_lt hn]
  · simp [settlement?_send, settlement?_of_le]
  · rw [settlement?_of_le (by omega), settlement?_of_le (Nat.le_of_lt hn)]
    simp [Nat.ne_of_gt hn]

theorem unsettled_send (t : Transport) (now : Nat) (d : Descriptor) :
    (t.send now d).unsettled = t.unsettled ++
      [t.sends.length].filter fun _ => (t.script.next.settlement now).isNone := by
  have hold : (List.range t.sends.length).filter (fun n => ((t.send now d).settlement? n).isNone) =
      t.unsettled := by
    refine List.filter_congr fun n hn => ?_
    rw [settlement?_send_of_lt (List.mem_range.mp hn)]
  rw [unsettled, sends_length_send, List.range_succ, List.filter_append, hold]
  simp only [List.filter_singleton, settlement?_send]

/-- If what is held is what has no answer, a release answers just that. -/
theorem sends_release (hp : ∀ h ∈ t.held, h.since ≤ now)
    (hu : t.held.map (·.send) = t.unsettled) :
    (t.release now (.after delay answer)).sends = t.sends.map (Sent.given ⟨now, answer⟩) := by
  rw [release_eq_handOut hp, handOut, foldl_give_after]
  refine List.ext_getElem? fun n => ?_
  rw [getElem?_settleAll, List.getElem?_map, hu]
  cases hx : t.sends[n]? with
  | none => rfl
  | some x =>
    have hlen : n < t.sends.length := (List.getElem?_eq_some_iff.mp hx).1
    have hsettled := settlement?_of_getElem? hx
    cases ha : x.settlement with
    | none => simp [mem_unsettled, hlen, hsettled, ha, Sent.given]
    | some a =>
      have hgiven : x.given ⟨now, answer⟩ = x := by rw [Sent.given, ha, Option.some_or, ← ha]
      simp [mem_unsettled, hsettled, ha, hgiven]

/-- It is what has no answer that is settled then. -/
theorem settlement?_release_iff (hp : ∀ h ∈ t.held, h.since ≤ now)
    (hu : t.held.map (·.send) = t.unsettled) (n : Nat) (a : Settlement) :
    (t.release now (.after delay answer)).settlement? n = some a ↔
      t.settlement? n = some a ∨ n ∈ t.unsettled ∧ a = ⟨now, answer⟩ := by
  rw [mem_unsettled, settlement?, settlement?, sends_release hp hu, List.getElem?_map]
  cases hx : t.sends[n]? with
  | none => simp [List.getElem?_eq_none_iff.mp hx]
  | some x =>
    have hn := (List.getElem?_eq_some_iff.mp hx).1
    cases ha : x.settlement <;> simp [hn, ha, Sent.given, eq_comm]

theorem unsettled_release (hp : ∀ h ∈ t.held, h.since ≤ now)
    (hu : t.held.map (·.send) = t.unsettled) :
    (t.release now (.after delay answer)).unsettled = [] := by
  refine List.filter_eq_nil_iff.mpr fun n hn => ?_
  rw [List.mem_range, sends_length_release] at hn
  have hx := List.getElem?_eq_getElem hn
  rw [settlement?, sends_release hp hu, List.getElem?_map, hx]
  cases ha : t.sends[n].settlement <;> simp [Sent.given, ha]

end Transport

/-! ## Mixtures of sends and releases -/

/-- What is done with a transport. -/
inductive Deed where
  | wait (ms : Nat)
  | send (d : Descriptor)
  | release (r : Reply)

def Deed.isSend : Deed → Bool
  | send _ => true
  | wait _ | release _ => false

/-- A transport at a time. -/
structure Desk where
  now : Nat := 0
  transport : Transport

namespace Desk

def act (k : Desk) : Deed → Desk
  | .wait ms => { k with now := k.now + ms }
  | .send d => { k with transport := k.transport.send k.now d }
  | .release r => { k with transport := k.transport.release k.now r }

theorem act_send (k : Desk) (d : Descriptor) :
    (k.act (.send d)).transport = k.transport.send k.now d := rfl

theorem act_release (k : Desk) (r : Reply) :
    (k.act (.release r)).transport = k.transport.release k.now r := rfl

def run (k : Desk) (deeds : List Deed) : Desk := deeds.foldl act k

/-- The sends that a deed settles, one after another. -/
def settles (k : Desk) : Deed → List (Nat × Settlement)
  | .wait _ | .release (.hold _) => []
  | .send _ =>
    (k.transport.script.next.settlement k.now).toList.map (k.transport.sends.length, ·)
  | .release (.after _ answer) => k.transport.held.map fun h => (h.send, ⟨k.now, answer⟩)

/-- The sends that are settled in the course of a run, one after another. -/
def uses (k : Desk) : List Deed → List (Nat × Settlement)
  | [] => []
  | deed :: deeds => k.settles deed ++ (k.act deed).uses deeds

/-- What a transport with a prompt script keeps to, of which so many sends have been settled. -/
structure Kept (script : Script Reply) (k : Desk) (used : List (Nat × Settlement)) : Prop where
  follows : k.transport.Follows
  script : k.transport.script.item = script.item
  /-- What is held is held since its sending. -/
  past : ∀ h ∈ k.transport.held, h.since ≤ k.now
  held : k.transport.held.map (·.send) = k.transport.unsettled
  once : (used.map Prod.fst).Nodup
  used : ∀ n a, (n, a) ∈ used ↔ k.transport.settlement? n = some a

variable {script : Script Reply} {k : Desk} {used : List (Nat × Settlement)}

theorem kept_new (unasked : script.taken = 0) : Kept script { transport := { script } } [] where
  follows := ⟨unasked, fun _ _ hx => (by cases hx), fun _ hk => (by cases hk)⟩
  script := rfl
  past := fun _ hh => (by cases hh)
  held := rfl
  once := List.nodup_nil
  used := by simp [Transport.settlement?]

/-- Sends that had no answer can be settled. -/
theorem Kept.once_append (h : k.Kept script used) {new : List (Nat × Settlement)}
    (hn : (new.map Prod.fst).Nodup)
    (hu : ∀ n ∈ new.map Prod.fst, k.transport.settlement? n = none) :
    ((used ++ new).map Prod.fst).Nodup := by
  rw [List.map_append, List.nodup_append]
  refine ⟨h.once, hn, ?_⟩
  intro n hmem m hnew
  obtain ⟨⟨n, a⟩, hused, rfl⟩ := List.mem_map.mp hmem
  have hsome := (h.used n a).mp hused
  rintro rfl
  rw [hu _ hnew] at hsome
  cases hsome

theorem Kept.wait (h : k.Kept script used) (ms : Nat) : (k.act (.wait ms)).Kept script used :=
  { h with past := fun x hx => Nat.le_trans (h.past x hx) (Nat.le_add_right _ _) }

/-- A send is settled at once by its own reply, or is held. -/
theorem Kept.send (hp : script.IsPrompt) (h : k.Kept script used) (d : Descriptor) :
    (k.act (.send d)).Kept script (used ++ k.settles (.send d)) := by
  have hnext : k.transport.script.next = script.item k.transport.sends.length := by
    rw [Script.next_eq_item, h.script, h.follows.taken]
  have hdelay : k.transport.script.next.delay = 0 := hnext ▸ hp.item _
  refine ⟨h.follows.send _ _, h.script, ?_, ?_, h.once_append ?_ ?_, ?_⟩
  · intro x hx
    cases hr : k.transport.script.next with
    | after delay answer => exact h.past x (by simpa [act, Transport.send, hr] using hx)
    | hold delay =>
      rw [hr] at hdelay
      simp only [act, Transport.send, hr, List.mem_append, List.mem_singleton] at hx
      rcases hx with hx | rfl
      · exact h.past x hx
      · exact Nat.le_of_eq (congrArg (k.now + ·) hdelay)
  · rw [act_send, Transport.unsettled_send, ← h.held]
    cases hr : k.transport.script.next <;> simp [Transport.send, hr, Reply.settlement]
  · cases hr : k.transport.script.next <;> simp [settles, hr, Reply.settlement]
  · intro n hn
    obtain ⟨⟨n, a⟩, hs, rfl⟩ := List.mem_map.mp hn
    obtain ⟨_, _, heq⟩ := List.mem_map.mp hs
    cases heq
    exact Transport.settlement?_of_le (Nat.le_refl _)
  · intro n a
    rw [act_send, Transport.settlement?_send_iff, List.mem_append, h.used n a]
    simp [settles, eq_comm, and_comm]

theorem mem_settles_release {n delay : Nat} {a : Settlement} {answer : Answer} :
    (n, a) ∈ k.settles (.release (.after delay answer)) ↔
      n ∈ k.transport.held.map (·.send) ∧ a = ⟨k.now, answer⟩ := by
  simp only [settles, List.mem_map, Prod.mk.injEq]
  constructor
  · rintro ⟨x, hx, rfl, rfl⟩
    exact ⟨⟨x, hx, rfl⟩, rfl⟩
  · rintro ⟨⟨x, hx, rfl⟩, rfl⟩
    exact ⟨x, hx, rfl, rfl⟩

/-- A release settles what is held, each request once. -/
theorem Kept.release (h : k.Kept script used) (r : Reply) :
    (k.act (.release r)).Kept script (used ++ k.settles (.release r)) := by
  cases r with
  | hold delay => exact (List.append_nil used).symm ▸ h
  | after delay answer =>
    have hheld : (k.transport.release k.now (.after delay answer)).held = [] :=
      Transport.held_release h.past
    have hunsettled : (k.transport.release k.now (.after delay answer)).unsettled = [] :=
      Transport.unsettled_release h.past h.held
    have hnew : (k.settles (.release (.after delay answer))).map Prod.fst =
        k.transport.unsettled := by
      rw [← h.held]
      simp [settles]
    refine ⟨h.follows.release k.now (.after delay answer), ?_, ?_, ?_, h.once_append ?_ ?_, ?_⟩
    · exact (congrArg Script.item (Transport.script_release _ _ _)).trans h.script
    · rw [act_release, hheld]
      exact fun _ hx => by cases hx
    · rw [act_release, hheld, hunsettled]
      rfl
    · rw [hnew]
      exact List.nodup_range.filter _
    · rw [hnew]
      exact fun n hn => (Transport.mem_unsettled.mp hn).2
    · intro n a
      rw [act_release, Transport.settlement?_release_iff h.past h.held, List.mem_append, h.used n a,
        mem_settles_release, h.held]

theorem Kept.act (hp : script.IsPrompt) (h : k.Kept script used) (deed : Deed) :
    (k.act deed).Kept script (used ++ k.settles deed) := by
  cases deed with
  | wait ms => exact (List.append_nil used).symm ▸ h.wait ms
  | send d => exact h.send hp d
  | release r => exact h.release r

theorem Kept.run (hp : script.IsPrompt) (h : k.Kept script used) (deeds : List Deed) :
    (k.run deeds).Kept script (used ++ k.uses deeds) := by
  induction deeds generalizing k used with
  | nil => exact (List.append_nil used).symm ▸ h
  | cons deed deeds ih =>
    rw [uses, ← List.append_assoc]
    exact ih (h.act hp deed)

theorem sends_length_act (k : Desk) (deed : Deed) :
    (k.act deed).transport.sends.length =
      k.transport.sends.length + if deed.isSend then 1 else 0 := by
  cases deed with
  | wait ms => rfl
  | send d => exact Transport.sends_length_send _ _ _
  | release r => exact Transport.sends_length_release _ _ _

theorem sends_length_run (k : Desk) (deeds : List Deed) :
    (k.run deeds).transport.sends.length =
      k.transport.sends.length + deeds.countP Deed.isSend := by
  induction deeds generalizing k with
  | nil => rfl
  | cons deed deeds ih =>
    rw [List.countP_cons, run, List.foldl_cons]
    refine (ih _).trans ?_
    rw [sends_length_act]
    omega

theorem run_append (k : Desk) (deeds more : List Deed) :
    k.run (deeds ++ more) = (k.run deeds).run more :=
  List.foldl_append

end Desk

/-! ## Who makes them -/

/-- The transport of a bench, and the time there. -/
def Bench.desk (b : Bench) : Desk := ⟨b.now, b.transport⟩

/-- A later bench has come by sends and releases alone, as far as its transport goes. -/
def Bench.Deals (b b' : Bench) : Prop := ∃ deeds, b'.desk = b.desk.run deeds

namespace Bench.Deals

variable {b b' b'' : Bench}

theorem of_eq (h : b'.desk = b.desk) : b.Deals b' := ⟨[], h⟩

theorem trans (h₁ : b.Deals b') (h₂ : b'.Deals b'') : b.Deals b'' := by
  obtain ⟨deeds, h₁⟩ := h₁
  obtain ⟨more, h₂⟩ := h₂
  exact ⟨deeds ++ more, by rw [h₂, h₁, Desk.run_append]⟩

theorem moveTo (b : Bench) (time : Nat) : b.Deals (b.moveTo time) := by
  refine ⟨[.wait (time - b.now)], ?_⟩
  have hnow : max b.now time = b.now + (time - b.now) := by omega
  simp only [desk, Bench.moveTo, Desk.run, List.foldl_cons, List.foldl_nil, Desk.act, hnow]

theorem release (b : Bench) (r : Reply) : b.Deals (b.release r) := ⟨[.release r], rfl⟩

theorem sent (b : Bench) (cycle : Nat) (d : Descriptor) : b.Deals (b.sent cycle d) :=
  ⟨[.send d], rfl⟩

end Bench.Deals

theorem Scheduler.Turn.deals {s s' : Scheduler} {l r : List LiveCycle} {c : LiveCycle}
    (ht : Turn s l c r s') : s.bench.Deals s'.bench := by
  cases ht with
  | sent => exact .sent _ _ _
  | _ => exact .of_eq rfl

theorem Scheduler.Move.deals {s s' : Scheduler} (hm : Move s s') : s.bench.Deals s'.bench := by
  cases hm.effect with
  | started | refreshed | shutDown | noted | unchanged => exact .of_eq rfl
  | released r => exact .release _ r
  | waited time => exact .moveTo _ time
  | polled _ _ ht => exact ht.deals

theorem Scheduler.Moves.deals {s s' : Scheduler} (hm : s.Moves s') : s.bench.Deals s'.bench := by
  induction hm with
  | refl => exact .of_eq rfl
  | tail _ hm ih => exact ih.trans hm.deals

theorem Attempt.deals_sendOnce (a : Attempt) (b : Bench) : b.Deals (a.sendOnce b).2 := by
  cases h : b.factory.next with
  | error chain =>
    rw [sendOnce_of_error h]
    exact .of_eq rfl
  | ok d =>
    rw [sendOnce_of_ok h]
    exact (Bench.Deals.sent b a.cycle d).trans (.moveTo _ _)

theorem Attempt.deals_tick (a : Attempt) (b : Bench) : b.Deals (a.tick b).2.2 := by
  cases h : a.maxTries.allows a.count.ticks with
  | false =>
    rw [tick_of_not_allowed h]
    exact .of_eq rfl
  | true =>
    rw [tick_of_allowed h]
    exact (a.deals_sendOnce b).trans (.of_eq rfl)

namespace Rehearsal

theorem deals_apply (r : Rehearsal) (s : Step) : r.bench.Deals (r.apply s).2.bench := by
  cases s with
  | tick i =>
    cases ha : r.attempts[i]? with
    | none => simpa only [apply, ha] using .of_eq rfl
    | some a => simpa only [apply, ha] using a.deals_tick r.bench
  | sendOnce i =>
    cases ha : r.attempts[i]? with
    | none => simpa only [apply, ha] using .of_eq rfl
    | some a => simpa only [apply, ha] using a.deals_sendOnce r.bench
  | sleep ms => exact .moveTo _ _
  | release reply => exact .release _ reply

theorem deals_run (r : Rehearsal) (steps : List Step) : r.bench.Deals (r.run steps).2.bench := by
  induction steps generalizing r with
  | nil => exact .of_eq rfl
  | cons s steps ih => exact (r.deals_apply s).trans (ih (r.apply s).2)

end Rehearsal

/-- A transport that has a script and has sent nothing. -/
def Desk.ofScript (script : Script Reply) : Desk where
  transport := { script }

/-- **No reply is lost or given twice.** However sends and releases are mixed on a transport that
has a prompt script, the sends take its replies one after another, then the fallback, and nothing
else takes any. No request is settled twice: the list of those settled on the way names each once,
and is what the transport knows. What is held is what has no answer, in the order of the sends. A
release gives the reply to all that is held, one after another, and then nothing is held; a reply
that holds changes nothing. Schedulers, with all their cycles, and attempts do nothing else with a
transport. -/
theorem no_reply_is_lost_or_given_twice {script : Script Reply} (unasked : script.taken = 0)
    (prompt : script.IsPrompt) :
    (∀ deeds : List Deed,
      let k := (Desk.ofScript script).run deeds
      let used := (Desk.ofScript script).uses deeds
      let t := k.transport
      t.script.taken = deeds.countP Deed.isSend ∧
      t.sends.length = deeds.countP Deed.isSend ∧
      (∀ n x, t.sends[n]? = some x →
        Replied x.time (script.entries.getD n script.fallback) x.settlement) ∧
      (used.map Prod.fst).Nodup ∧
      (∀ n a, (n, a) ∈ used ↔ t.settlement? n = some a) ∧
      t.held.map (·.send) =
        (List.range t.sends.length).filter (fun n => (t.settlement? n).isNone) ∧
      (∀ delay answer,
        let r := Reply.after delay answer
        let released := t.release k.now r
        released = t.handOut k.now r ∧
        k.settles (.release r) = t.held.map (fun h => (h.send, ⟨k.now, answer⟩)) ∧
        released.sends = t.sends.map (Sent.given ⟨k.now, answer⟩) ∧ released.held = []) ∧
      ∀ delay, t.release k.now (.hold delay) = t ∧ t.handOut k.now (.hold delay) = t) ∧
    (∀ c factory s, (Scheduler.fresh c factory script).Moves s →
      ∃ deeds, s.bench.desk = (Desk.ofScript script).run deeds) ∧
    ∀ (r : Rehearsal) steps, r.bench.desk = Desk.ofScript script →
      ∃ deeds, (r.run steps).2.bench.desk = (Desk.ofScript script).run deeds := by
  refine ⟨fun deeds => ?_, fun c factory s hm => hm.deals, fun r steps hr => ?_⟩
  · have kept := (Desk.kept_new unasked).run prompt deeds
    have hsends := Desk.sends_length_run (Desk.ofScript script) deeds
    rw [show (Desk.ofScript script).transport.sends.length = 0 from rfl, Nat.zero_add] at hsends
    refine ⟨kept.follows.taken.trans hsends, hsends, ?_, kept.once, kept.used, kept.held, ?_, ?_⟩
    · intro n x hx
      have hreplied := kept.follows.replied n x hx
      rw [kept.script] at hreplied
      exact hreplied
    · intro delay answer
      exact ⟨Transport.release_eq_handOut kept.past _, rfl,
        Transport.sends_release kept.past kept.held, Transport.held_release kept.past⟩
    · intro delay
      exact ⟨rfl, (Transport.release_eq_handOut kept.past (.hold delay)).symm⟩
  · rw [← hr]
    exact r.deals_run steps

/-- Two requests are held, one of them again, and are released with a rejection. -/
theorem held_requests_are_settled_once :
    let d : Descriptor := ⟨"a-1", "app", "host", "10.0.0.1", 1, "1.0", 0, [], false⟩
    let k := Desk.ofScript ⟨[.hold 0, .refused], .hold 0, 0⟩
    let deeds : List Deed := [.send d, .release (.hold 0), .wait 5, .send d, .send d]
    ((k.run deeds).transport.held.map (·.send) = [0, 2]) ∧
      ((k.uses (deeds ++ [.release .nack, .release .ack])).map Prod.fst).Nodup ∧
      (k.uses (deeds ++ [.release .nack, .release .ack])).map Prod.fst = [1, 0, 2] := by
  intro d k deeds
  have prompt : Script.IsPrompt ⟨[.hold 0, .refused], .hold 0, 0⟩ := by decide
  have kept := (no_reply_is_lost_or_given_twice rfl prompt).1
  exact ⟨by decide, (kept (deeds ++ [.release .nack, .release .ack])).2.2.2.1, by decide⟩

end Heartbeat
