import Heartbeat.Proofs.Scripts

/-!
# Heartbeat.Proofs.Held

A release answers a send by what is known of that send alone.

* `Sent.released`            — what a release makes of one send.
* `Transport.Holding`        — every send without an answer is held back.
* `Transport.release_sends`  — so a release treats every send alike.
* `Reachable.holding`        — sends without an answer are held back in every reachable state.
-/

namespace Heartbeat

/-- A send that its reply holds back is answered if it has been held back by now. -/
def Sent.released (now : Nat) (reply : Reply) (answer : Answer) (x : Sent) : Sent :=
  match reply, x.settlement with
  | .hold delay, none =>
    if x.time + delay ≤ now then { x with settlement := some ⟨now, answer⟩ } else x
  | _, _ => x

theorem Sent.released_of_some {x : Sent} {a : Settlement} (h : x.settlement = some a) (now : Nat)
    (reply : Reply) (answer : Answer) : x.released now reply answer = x := by
  cases reply <;> simp [released, h]

theorem Sent.released_of_none {x : Sent} {delay : Nat} (h : x.settlement = none) (now : Nat)
    (answer : Answer) : x.released now (.hold delay) answer =
      if x.time + delay ≤ now then { x with settlement := some ⟨now, answer⟩ } else x := by
  simp [released, h]

namespace Transport

variable {t : Transport}

def Holding (t : Transport) : Prop :=
  ∀ (n : Nat) (x : Sent), t.sends[n]? = some x → x.settlement = none →
    ∃ delay, t.script.item n = .hold delay ∧ ⟨n, x.time + delay⟩ ∈ t.held

theorem getElem?_settle (t : Transport) (a : Settlement) (send n : Nat) :
    (t.settle a send).sends[n]? = t.sends[n]?.map fun x =>
      if send = n then { x with settlement := x.settlement.or (some a) } else x := by
  simp only [settle, List.getElem?_modify]
  by_cases h : send = n <;> simp [h]

theorem getElem?_settleAll (a : Settlement) (due : List Held) (n : Nat) (t : Transport) :
    (due.foldl (fun t h => t.settle a h.send) t).sends[n]? = t.sends[n]?.map fun x =>
      if n ∈ due.map (·.send) then { x with settlement := x.settlement.or (some a) } else x := by
  induction due generalizing t with
  | nil => simp
  | cons h due ih =>
    rw [List.foldl_cons, ih, getElem?_settle, Option.map_map]
    congr 1
    funext x
    by_cases hn : h.send = n
    · subst hn
      by_cases hd : h.send ∈ due.map (·.send)
      · cases hs : x.settlement <;> simp [hd, hs]
      · simp [hd]
    · simp [hn, Ne.symm hn]

/-- A release does to every send what its reply and its own age ask for. -/
theorem release_sends (hf : t.Follows) (hh : t.Holding) (now delay : Nat) (answer : Answer)
    {n : Nat} {x : Sent} (hx : t.sends[n]? = some x) :
    (t.release now (.after delay answer)).sends[n]? =
      some (x.released now (t.script.item n) answer) := by
  simp only [release, getElem?_settleAll, hx, Option.map_some, Option.some.injEq]
  cases hs : x.settlement with
  | some a =>
    rw [Sent.released_of_some hs]
    split
    · rw [Option.some_or, ← hs]
    · rfl
  | none =>
    obtain ⟨d, hr, hmem⟩ := hh n x hx hs
    rw [hr, Sent.released_of_none hs]
    -- a send is held back once only, since the time at which it was sent and its delay
    have hdue : n ∈ (t.held.filter (·.since ≤ now)).map (·.send) ↔ x.time + d ≤ now := by
      simp only [List.mem_map, List.mem_filter, decide_eq_true_eq]
      constructor
      · rintro ⟨h, ⟨hm, hle⟩, rfl⟩
        obtain ⟨y, d', hy, hr', hd⟩ := hf.held h hm
        cases hx.symm.trans hy
        cases hr.symm.trans hr'
        omega
      · intro hle
        exact ⟨_, ⟨hmem, hle⟩, rfl⟩
    simp [hdue]

theorem Holding.send (h : t.Holding) (hf : t.Follows) (now : Nat) (d : Descriptor) :
    (t.send now d).Holding := by
  intro n x hx hs
  simp only [Transport.send, List.getElem?_append, List.getElem?_singleton] at hx
  have hreply : t.script.item t.sends.length = t.script.next := by
    rw [Script.next_eq_item, hf.taken]
  split at hx
  · obtain ⟨delay, hr, hm⟩ := h n x hx hs
    refine ⟨delay, hr, ?_⟩
    cases hn : t.script.next <;> simp [Transport.send, hn, hm]
  · split at hx
    · have hn : n = t.sends.length := by omega
      cases hx
      subst hn
      cases hn : t.script.next with
      | after => simp [hn, Reply.settlement] at hs
      | hold delay => exact ⟨delay, hreply.trans hn, by simp [Transport.send, hn]⟩
    · cases hx

theorem Holding.release (h : t.Holding) (hf : t.Follows) (now : Nat) (r : Reply) :
    (t.release now r).Holding := by
  cases r with
  | hold delay => exact h
  | after delay answer =>
    intro n y hy hs
    have hlen : n < t.sends.length := by
      have := (List.getElem?_eq_some_iff.mp hy).1
      rwa [sends_length_release] at this
    have hx : t.sends[n]? = some t.sends[n] := List.getElem?_eq_getElem hlen
    generalize t.sends[n] = x at hx
    rw [release_sends hf h now delay answer hx, Option.some.injEq] at hy
    cases hxs : x.settlement with
    | some a =>
      rw [Sent.released_of_some hxs] at hy
      rw [← hy, hxs] at hs
      cases hs
    | none =>
      obtain ⟨d, hr, hm⟩ := h n x hx hxs
      rw [hr, Sent.released_of_none hxs] at hy
      split at hy
      · rw [← hy] at hs
        cases hs
      · subst hy
        refine ⟨d, by rw [script_release, hr], ?_⟩
        simp only [Transport.release, List.mem_filter, decide_eq_true_eq]
        exact ⟨hm, by omega⟩

end Transport

namespace Scheduler

variable {s s' : Scheduler}

theorem Turn.holding {l r : List LiveCycle} {c : LiveCycle} (h : s.bench.transport.Holding)
    (hf : s.bench.transport.Follows) (ht : Turn s l c r s') : s'.bench.transport.Holding := by
  cases ht with
  | sent => exact h.send hf _ _
  | _ => exact h

theorem Reachable.holding (h : Reachable s) : s.bench.transport.Holding := by
  induction h with
  | fresh => intro n x hx; cases hx
  | @move s s' h hm ih =>
    have hf := h.follows.transport
    cases hm.effect with
    | started | refreshed | shutDown | noted | unchanged | waited => exact ih
    | released r => exact ih.release hf _ r
    | polled _ _ ht => exact ht.holding ih hf

end Scheduler
end Heartbeat
