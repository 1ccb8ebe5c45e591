import Heartbeat.Proofs.Moves

/-!
# Heartbeat.Proofs.Growth

What moves never take back.

* `Bench.Grows b b'` — the clock goes forward, the log and the sends are only added to, and the
  answer to an old send may become known but never changes.
* `AddsNo p s s'`    — the log is told of no event of a sort.
* `Spares s s' id`   — cycle `id` and what the log says of it are left alone.
* `Move.grows`       — every move lets the bench grow.
* `Move.spares`      — a move leaves every cycle alone but the one that it polls.
-/

namespace Heartbeat

namespace Script

variable {α : Type}

/-- What is given out after `n` others. -/
def item (s : Script α) (n : Nat) : α := s.entries.getD n s.fallback

theorem next_eq_item (s : Script α) : s.next = s.item s.taken := rfl

@[simp] theorem item_advance (s : Script α) : s.advance.item = s.item := rfl

end Script

/-- A send is the same at a later time, but for an answer that was not known at `now`. -/
def Sent.Keeps (now : Nat) (x y : Sent) : Prop :=
  y.time = x.time ∧ y.descriptor = x.descriptor ∧
    (y.settlement = x.settlement ∨
      x.settlement = none ∧ ∃ a, y.settlement = some a ∧ now ≤ a.time)

namespace Sent.Keeps

theorem refl (now : Nat) (x : Sent) : x.Keeps now x := ⟨rfl, rfl, .inl rfl⟩

theorem trans {now now' : Nat} {x y z : Sent} (hn : now ≤ now') (h₁ : x.Keeps now y)
    (h₂ : y.Keeps now' z) : x.Keeps now z := by
  obtain ⟨t₁, d₁, a₁⟩ := h₁
  obtain ⟨t₂, d₂, a₂⟩ := h₂
  refine ⟨t₂.trans t₁, d₂.trans d₁, ?_⟩
  rcases a₂ with a₂ | ⟨hy, a, ha, hl⟩
  · rw [a₂]; exact a₁
  · rcases a₁ with a₁ | ⟨_, b, hb, _⟩
    · exact .inr ⟨a₁ ▸ hy, a, ha, Nat.le_trans hn hl⟩
    · rw [hb] at hy; cases hy

end Sent.Keeps

/-- Every send is still there. -/
def KeepsSends (now : Nat) (xs ys : List Sent) : Prop :=
  ∀ (n : Nat) (x : Sent), xs[n]? = some x → ∃ y, ys[n]? = some y ∧ x.Keeps now y

namespace KeepsSends

theorem refl (now : Nat) (xs : List Sent) : KeepsSends now xs xs :=
  fun _ x h => ⟨x, h, .refl now x⟩

theorem trans {now now' : Nat} {xs ys zs : List Sent} (hn : now ≤ now')
    (h₁ : KeepsSends now xs ys) (h₂ : KeepsSends now' ys zs) : KeepsSends now xs zs := by
  intro n x hx
  obtain ⟨y, hy, kxy⟩ := h₁ n x hx
  obtain ⟨z, hz, kyz⟩ := h₂ n y hy
  exact ⟨z, hz, kxy.trans hn kyz⟩

theorem append (now : Nat) (xs ys : List Sent) : KeepsSends now xs (xs ++ ys) := by
  intro n x hx
  have hn : n < xs.length := (List.getElem?_eq_some_iff.mp hx).1
  exact ⟨x, by rw [List.getElem?_append_left hn, hx], .refl now x⟩

/-- Settling a send that has an answer already changes nothing. -/
theorem settle {now : Nat} (t : Transport) {a : Settlement} (ha : now ≤ a.time) (send : Nat) :
    KeepsSends now t.sends (t.settle a send).sends := by
  intro n x hx
  by_cases hn : send = n
  · subst hn
    refine ⟨{ x with settlement := x.settlement.or (some a) }, by simp [Transport.settle, hx],
      rfl, rfl, ?_⟩
    cases h : x.settlement with
    | none => exact .inr ⟨rfl, a, rfl, ha⟩
    | some b => exact .inl rfl
  · exact ⟨x, by simp [Transport.settle, hn, hx], .refl now x⟩

theorem settleAll {now : Nat} {a : Settlement} (ha : now ≤ a.time) (due : List Held)
    (t : Transport) :
    KeepsSends now t.sends (due.foldl (fun t h => t.settle a h.send) t).sends := by
  induction due generalizing t with
  | nil => exact refl now _
  | cons h due ih => exact (settle t ha h.send).trans (Nat.le_refl now) (ih _)

theorem release (now : Nat) (t : Transport) (r : Reply) :
    KeepsSends now t.sends (t.release now r).sends := by
  cases r with
  | hold delay => exact refl now _
  | after delay answer => exact settleAll (Nat.le_refl now) _ t

end KeepsSends

namespace Transport

theorem script_settleAll (a : Settlement) (due : List Held) (t : Transport) :
    (due.foldl (fun t h => t.settle a h.send) t).script = t.script := by
  induction due generalizing t with
  | nil => rfl
  | cons h due ih => exact ih _

@[simp] theorem script_release (t : Transport) (now : Nat) (r : Reply) :
    (t.release now r).script = t.script := by
  cases r with
  | hold delay => rfl
  | after delay answer => exact script_settleAll _ _ t

theorem sends_length_settleAll (a : Settlement) (due : List Held) (t : Transport) :
    (due.foldl (fun t h => t.settle a h.send) t).sends.length = t.sends.length := by
  induction due generalizing t with
  | nil => rfl
  | cons h due ih =>
    rw [List.foldl_cons, ih]
    simp [settle]

@[simp] theorem sends_length_release (t : Transport) (now : Nat) (r : Reply) :
    (t.release now r).sends.length = t.sends.length := by
  cases r with
  | hold delay => rfl
  | after delay answer => exact sends_length_settleAll _ _ t

end Transport

/-- What can happen to a bench, as far as it bears on what has been. -/
structure Bench.Grows (b b' : Bench) : Prop where
  now : b.now ≤ b'.now
  log : b.log <:+ b'.log
  sends : KeepsSends b.now b.transport.sends b'.transport.sends
  factory : b'.factory.item = b.factory.item
  script : b'.transport.script.item = b.transport.script.item

namespace Bench.Grows

theorem refl (b : Bench) : b.Grows b := ⟨Nat.le_refl _, List.suffix_rfl, .refl _ _, rfl, rfl⟩

theorem trans {b b' b'' : Bench} (h₁ : b.Grows b') (h₂ : b'.Grows b'') : b.Grows b'' where
  now := Nat.le_trans h₁.now h₂.now
  log := h₁.log.trans h₂.log
  sends := h₁.sends.trans h₁.now h₂.sends
  factory := h₂.factory.trans h₁.factory
  script := h₂.script.trans h₁.script

theorem note (b : Bench) (e : Event) : b.Grows (b.note e) :=
  { refl b with log := List.suffix_cons _ _ }

theorem moveTo (b : Bench) (time : Nat) : b.Grows (b.moveTo time) :=
  { refl b with now := Nat.le_max_left _ _ }

theorem release (b : Bench) (r : Reply) : b.Grows (b.release r) :=
  { refl b with
    sends := .release _ _ _
    script := congrArg Script.item (Transport.script_release _ _ _) }

end Bench.Grows

/-- The entries of one cycle in a log, the first one first. -/
def Entry.ofCycle (id : Nat) (log : List Entry) : List Entry :=
  (log.filter fun e => e.event.cycle? == some id).reverse

namespace Entry

theorem ofCycle_cons_self {id : Nat} {e : Event} (h : e.cycle? = some id) (time : Nat)
    (log : List Entry) : ofCycle id (⟨time, e⟩ :: log) = ofCycle id log ++ [⟨time, e⟩] := by
  simp [ofCycle, h]

theorem ofCycle_cons_other {id : Nat} {e : Event} (h : e.cycle? ≠ some id) (time : Nat)
    (log : List Entry) : ofCycle id (⟨time, e⟩ :: log) = ofCycle id log := by
  simp [ofCycle, h]

end Entry

@[simp] theorem Attempt.cycle?_verdict (a : Attempt) (o : Outcome) :
    (a.verdict o).cycle? = some a.cycle := by
  cases o <;> rfl

namespace Scheduler

/-- What the log says of a cycle, the first entry first. -/
def history (s : Scheduler) (id : Nat) : List Entry := Entry.ofCycle id s.bench.log

/-- Between two states the log has come to tell of no event of a certain sort. -/
def AddsNo (p : Event → Bool) (s s' : Scheduler) : Prop :=
  ∃ new, s'.bench.log = new ++ s.bench.log ∧ ∀ e ∈ new, p e.event = false

namespace AddsNo

variable {p : Event → Bool} {s s' s'' : Scheduler}

theorem refl (p : Event → Bool) (s : Scheduler) : AddsNo p s s := ⟨[], rfl, by simp⟩

theorem trans (h₁ : AddsNo p s s') (h₂ : AddsNo p s' s'') : AddsNo p s s'' := by
  obtain ⟨n₁, hl₁, hn₁⟩ := h₁
  obtain ⟨n₂, hl₂, hn₂⟩ := h₂
  refine ⟨n₂ ++ n₁, by rw [hl₂, hl₁, List.append_assoc], fun e he => ?_⟩
  rcases List.mem_append.mp he with he | he
  · exact hn₂ e he
  · exact hn₁ e he

theorem of_cons {time : Nat} {e : Event} (hl : s'.bench.log = ⟨time, e⟩ :: s.bench.log)
    (he : p e = false) : AddsNo p s s' :=
  ⟨[⟨time, e⟩], hl, by simpa using he⟩

theorem mem_iff (h : AddsNo p s s') {e : Entry} (he : p e.event = true) :
    e ∈ s'.bench.log ↔ e ∈ s.bench.log := by
  obtain ⟨new, hl, hn⟩ := h
  rw [hl, List.mem_append]
  constructor
  · rintro (hm | hm)
    · rw [hn e hm] at he
      cases he
    · exact hm
  · exact .inr

end AddsNo

/-- No live cycle has the number. -/
def Gone (s : Scheduler) (id : Nat) : Prop := ∀ c ∈ s.live, c.attempt.cycle ≠ id

/-- Between two states a cycle stays as it is, and nothing is said of it. -/
structure Spares (s s' : Scheduler) (id : Nat) : Prop where
  history : s'.history id = s.history id
  live : ∀ c : LiveCycle, c.attempt.cycle = id → (c ∈ s'.live ↔ c ∈ s.live)

namespace Spares

theorem trans {s s' s'' : Scheduler} {id : Nat} (h₁ : Spares s s' id) (h₂ : Spares s' s'' id) :
    Spares s s'' id where
  history := h₂.history.trans h₁.history
  live := fun c hc => (h₂.live c hc).trans (h₁.live c hc)

theorem of_note {s : Scheduler} {e : Event} (id : Nat) (h : e.cycle? = none) :
    Spares s (s.note e) id where
  history := Entry.ofCycle_cons_other (by simp [h]) _ _
  live := fun _ _ => Iff.rfl

theorem of_arm {s : Scheduler} (c : Cycle) {id : Nat} (h : id ≠ s.nextCycle) :
    Spares s (s.arm c) id where
  history := Entry.ofCycle_cons_other (by simpa [Event.cycle?] using Ne.symm h) _ _
  live := by
    rintro x rfl
    have : x ≠ s.armed c := by rintro rfl; exact h rfl
    simp [this]

theorem gone {s s' : Scheduler} {id : Nat} (h : Spares s s' id) (hg : s.Gone id) :
    s'.Gone id := by
  intro c hc hid
  exact hg c ((h.live c hid).mp hc) hid

end Spares

theorem Turn.grows {s s' : Scheduler} {l r : List LiveCycle} {c : LiveCycle}
    (h : Turn s l c r s') : s.bench.Grows s'.bench := by
  cases h with
  | cancelled | exhausted | retried | delivered => exact .note _ _
  | unsent => exact { Bench.Grows.note _ _ with factory := rfl }
  | sent =>
    exact { Bench.Grows.note _ _ with factory := rfl, script := rfl, sends := .append _ _ _ }
  | rearmed | notRearmed => exact (Bench.Grows.note _ _).trans (.note _ _)

section Turns

variable {s s' : Scheduler} {l r : List LiveCycle} {c : LiveCycle}

theorem Turn.now_eq (h : Turn s l c r s') : s'.bench.now = s.bench.now := by cases h <;> rfl

theorem Turn.cadence_eq (h : Turn s l c r s') : s'.cadence = s.cadence := by cases h <;> rfl

end Turns

theorem Move.grows {s s' : Scheduler} (h : Move s s') : s.bench.Grows s'.bench := by
  cases h.effect with
  | started | refreshed | noted => exact .note _ _
  | shutDown | unchanged => exact .refl _
  | released r => exact .release _ r
  | waited time => exact .moveTo _ time
  | polled _ _ ht => exact ht.grows

theorem Move.cadence_eq {s s' : Scheduler} (h : Move s s') : s'.cadence = s.cadence := by
  cases h.effect with
  | polled _ _ ht => exact ht.cadence_eq
  | _ => rfl

/-- Time does not pass a live cycle that is ready. -/
theorem Move.now_le {s s' : Scheduler} {c : LiveCycle} (h : Move s s') (hc : c ∈ s.live) :
    s'.bench.now ≤ max s.bench.now (s.wakeTime c) := by
  cases h.effect with
  | started | refreshed | shutDown | noted | unchanged | released => exact Nat.le_max_left _ _
  | waited time hw =>
    have := hw c hc
    rw [wait_bench, Bench.moveTo_now]
    omega
  | polled _ _ ht => rw [ht.now_eq]; exact Nat.le_max_left _ _

theorem Moves.grows {s s' : Scheduler} (h : Moves s s') : s.bench.Grows s'.bench := by
  induction h with
  | refl => exact .refl _
  | tail _ hm ih => exact ih.trans hm.grows

theorem Moves.cadence_eq {s s' : Scheduler} (h : Moves s s') : s'.cadence = s.cadence := by
  induction h with
  | refl => rfl
  | tail _ hm ih => exact hm.cadence_eq.trans ih

theorem mem_of_ne {l r : List LiveCycle} {c x : LiveCycle}
    (h : x.attempt.cycle ≠ c.attempt.cycle) : x ∈ l ++ c :: r ↔ x ∈ l ++ r := by
  have : x ≠ c := by rintro rfl; exact h rfl
  simp [this]

theorem ne_nextCycle_of_arm {n n' id : Nat} (h : n + 1 ≤ n') (hn : id < n ∨ n' ≤ id) :
    id ≠ n := by
  omega

/-- A poll leaves all cycles alone but the one polled and the one armed. -/
theorem Turn.spares {s s' : Scheduler} {l r : List LiveCycle} {c : LiveCycle}
    (hl : s.live = l ++ c :: r) (h : Turn s l c r s') {id : Nat}
    (hn : id < s.nextCycle ∨ s'.nextCycle ≤ id) (hc : c.attempt.cycle ≠ id) :
    Spares s s' id := by
  have hm : ∀ x : LiveCycle, x.attempt.cycle = id → (x ∈ l ++ r ↔ x ∈ s.live) := by
    rintro x rfl; rw [hl, mem_of_ne (Ne.symm hc)]
  have hm' : ∀ c' x : LiveCycle, c'.attempt.cycle = c.attempt.cycle → x.attempt.cycle = id →
      (x ∈ l ++ c' :: r ↔ x ∈ s.live) := by
    rintro c' x h' rfl; rw [← hm x rfl, mem_of_ne (by rw [h']; exact Ne.symm hc)]
  have hk : c.attempt.count.cycle = c.attempt.cycle := rfl
  have hv : ∀ {o}, (c.attempt.verdict o).cycle? ≠ some id := by simp [hc]
  have hv' : ∀ {o}, (c.attempt.count.verdict o).cycle? ≠ some id := by simp [hk, hc]
  cases h with
  | cancelled | exhausted =>
    exact ⟨Entry.ofCycle_cons_other (by simpa [Event.cycle?] using hc) _ _, hm⟩
  | unsent => exact ⟨Entry.ofCycle_cons_other hv' _ _, fun x hx => hm' _ x hk hx⟩
  | sent =>
    exact ⟨Entry.ofCycle_cons_other (by simpa [Event.cycle?] using hc) _ _,
      fun x hx => hm' _ x hk hx⟩
  | retried => exact ⟨Entry.ofCycle_cons_other hv _ _, fun x hx => hm' _ x rfl hx⟩
  | delivered => exact ⟨Entry.ofCycle_cons_other hv _ _, hm⟩
  | rearmed =>
    have ha := Spares.of_arm (s := { s.note (c.attempt.verdict .success) with live := l ++ r })
      (.slowRefresh s.cadence) (ne_nextCycle_of_arm (Nat.le_refl _) hn)
    exact ⟨ha.history.trans (Entry.ofCycle_cons_other hv _ _),
      fun x hx => (ha.live x hx).trans (hm x hx)⟩
  | notRearmed =>
    refine ⟨?_, hm⟩
    rw [history, note_bench, Bench.note_log,
      Entry.ofCycle_cons_other (by simpa [Event.cycle?] using hc)]
    exact Entry.ofCycle_cons_other hv _ _

/-- What a move does to a cycle that it does not arm: nothing, or a turn. -/
theorem Move.spares {s s' : Scheduler} (h : Move s s') {id : Nat}
    (hn : id < s.nextCycle ∨ s'.nextCycle ≤ id) :
    Spares s s' id ∨ ∃ l c r, s.live = l ++ c :: r ∧ c.attempt.cycle = id ∧
      s.wakeTime c ≤ s.bench.now ∧ Turn s l c r s' := by
  cases h.effect with
  | started =>
    have ha := Spares.of_arm (s := { s with lifecycle := .running }) (.fastBringup s.cadence)
      (ne_nextCycle_of_arm (Nat.le_refl _) hn)
    exact .inl ⟨ha.history, ha.live⟩
  | refreshed => exact .inl (.of_arm _ (ne_nextCycle_of_arm (Nat.le_refl _) hn))
  | noted he => exact .inl (.of_note _ he)
  | shutDown | unchanged | released | waited => exact .inl ⟨rfl, fun _ _ => Iff.rfl⟩
  | @polled _ l r c hl hw ht =>
    by_cases hc : c.attempt.cycle = id
    · exact .inr ⟨l, c, r, hl, hc, hw, ht⟩
    · exact .inl (ht.spares hl hn hc)

end Scheduler
end Heartbeat
