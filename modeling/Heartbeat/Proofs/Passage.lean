import Heartbeat.Proofs.Elapse
import Heartbeat.Proofs.Retries

/-!
# Heartbeat.Proofs.Passage

Time gets through: a sleep takes finitely many polls, however short the interval is, whatever is
answered, and in whatever order simultaneous cycles are polled.

* `Polls target n s s'`       — `n` polls of what is ready by the target.
* `Scheduler.owed`            — the polls that it takes to end what is live.
* `Scheduler.paid`            — what the log accounts for: two polls for a tick, one for a refresh.
* `Polls.paid_le`             — every poll is owed or paid for.
* `Polls.beginnings_le`       — a cycle begins few ticks meanwhile, as they are spread.
* `Polls.length_refreshes_le` — few refreshes are armed meanwhile, as they are apart.
* `Moves.beginnings_le`       — only cycles that are live or newly armed begin ticks.
* `Polls.le`                  — so there are few polls.
-/

namespace Heartbeat

/-- How many polls end a cycle: one if no tick begins first, and one more for a tick under way. -/
def Phase.owed : Phase → Nat
  | idle _ => 1
  | waiting .. => 2

/-- How many polls an event accounts for: a tick that begins for its end too, a refresh that is
armed for its own end. -/
def Event.pays (e : Event) : Nat := 2 * e.beginsTick.toNat + (e.arms .slowRefresh).toNat

theorem Phase.owed_le (p : Phase) : p.owed ≤ 2 := by
  cases p <;> simp [owed]

theorem Entry.sum_pays (log : List Entry) :
    (log.map (·.event.pays)).sum =
      2 * (beginnings log).length + log.countP (·.event.arms .slowRefresh) := by
  induction log with
  | nil => rfl
  | cons e log ih =>
    rw [List.map_cons, List.sum_cons, ih, Event.pays, beginnings, beginnings, List.length_map,
      List.length_map, ← List.countP_eq_length_filter, ← List.countP_eq_length_filter,
      List.countP_cons, List.countP_cons]
    cases e.event.beginsTick <;> cases e.event.arms .slowRefresh <;>
      simp only [Bool.toNat_true, Bool.toNat_false, if_true, Bool.false_eq_true, if_false] <;>
      omega

namespace Scheduler

variable {s s' s'' : Scheduler} {target n id : Nat}

/-- So many polls of what is ready by the target, in any order of those that are ready at one
time. -/
inductive Polls (target : Nat) : Nat → Scheduler → Scheduler → Prop where
  | none {s : Scheduler} : Polls target 0 s s
  | next {n : Nat} {s s' s'' : Scheduler} :
      Advances target s s' → Polls target n s' s'' → Polls target (n + 1) s s''

theorem Polls.moves (h : Polls target n s s') : s.Moves s' := by
  induction h with
  | none => exact .refl
  | next ha _ ih => exact ha.moves.trans ih

theorem Polls.now_le (h : Polls target n s s') (hn : s.bench.now ≤ target) :
    s'.bench.now ≤ target := by
  induction h with
  | none => exact hn
  | next ha _ ih => exact ih (ha.now_le hn)

theorem Polls.last (h : Polls target n s s') (ha : Advances target s' s'') :
    Polls target (n + 1) s s'' := by
  induction h with
  | none => exact .next ha .none
  | next ha' _ ih => exact .next ha' (ih ha)

theorem polls_chain {chain : Nat → Scheduler}
    (h : ∀ n, Advances target (chain n) (chain (n + 1))) (n : Nat) :
    Polls target n (chain 0) (chain n) := by
  induction n with
  | zero => exact .none
  | succ n ih => exact ih.last (h n)

theorem Passes.polls (h : Passes target s s') : ∃ n, Polls target n s s' := by
  induction h with
  | rest => exact ⟨0, .none⟩
  | step ha _ ih =>
    obtain ⟨n, ih⟩ := ih
    exact ⟨n + 1, .next ha ih⟩

/-! ## Every poll is owed or paid for -/

/-- The polls that it takes to end all of some cycles. -/
def dues (live : List LiveCycle) : Nat := (live.map (·.phase.owed)).sum

@[simp] theorem dues_nil : dues [] = 0 := rfl

@[simp] theorem dues_cons (c : LiveCycle) (live : List LiveCycle) :
    dues (c :: live) = c.phase.owed + dues live := by
  simp [dues]

@[simp] theorem dues_append (l r : List LiveCycle) : dues (l ++ r) = dues l + dues r := by
  simp [dues]

theorem dues_le (live : List LiveCycle) : dues live ≤ live.length * 2 := by
  have hle : ∀ n ∈ live.map (·.phase.owed), n ≤ 2 := by
    intro n hn
    obtain ⟨c, -, rfl⟩ := List.mem_map.mp hn
    exact c.phase.owed_le
  simpa [dues] using List.sum_le_card_nsmul _ 2 hle

/-- The polls that it takes to end what is live. -/
def owed (s : Scheduler) : Nat := dues s.live

/-- The polls that the log accounts for. -/
def paid (s : Scheduler) : Nat := (s.bench.log.map (·.event.pays)).sum

theorem paid_eq (s : Scheduler) :
    s.paid = 2 * (Entry.beginnings s.bench.log).length + s.refreshTimes.length := by
  rw [paid, Entry.sum_pays, refreshTimes, List.length_map, List.countP_eq_length_filter]

theorem paid_le_of (new : List Entry) (log : s'.bench.log = new ++ s.bench.log)
    (h : s'.owed + 1 ≤ s.owed + (new.map (·.event.pays)).sum) :
    s.paid + s'.owed + 1 ≤ s'.paid + s.owed := by
  rw [paid, paid, log, List.map_append, List.sum_append]
  omega

/-- What a poll does is owed already, or is paid for as a tick begins or a refresh is armed. -/
theorem Turn.paid_le {l r : List LiveCycle} {c : LiveCycle} (hl : s.live = l ++ c :: r)
    (ht : Turn s l c r s') : s.paid + s'.owed + 1 ≤ s'.paid + s.owed := by
  have begins {time : Nat} {e : Event} (he : e.beginsTick = true) :
      2 ≤ ([⟨time, e⟩].map fun x : Entry => x.event.pays).sum := by
    rw [List.map_singleton, List.sum_singleton, Event.pays, he, Bool.toNat_true]
    omega
  cases ht with
  | cancelled hp | exhausted hp | retried hp | delivered hp =>
    refine paid_le_of [_] rfl ?_
    simp only [owed, hl, hp, dues_append, dues_cons, Phase.owed]
    omega
  | unsent hp | sent hp =>
    refine paid_le_of [_] rfl (Nat.le_trans ?_ (Nat.add_le_add_left (begins rfl) _))
    simp only [owed, hl, hp, dues_append, dues_cons, Phase.owed]
    omega
  | rearmed hp =>
    refine paid_le_of [_, _] rfl ?_
    simp only [owed, hl, hp, arm_live, armed, dues_append, dues_cons, dues_nil, Phase.owed]
    omega
  | notRearmed hp =>
    refine paid_le_of [_, _] rfl ?_
    simp only [owed, hl, hp, dues_append, dues_cons, Phase.owed]
    omega

theorem Polls.paid_le (h : Polls target n s s') : s.paid + s'.owed + n ≤ s'.paid + s.owed := by
  induction h with
  | none => exact Nat.le_refl _
  | @next n s s' s'' ha _ ih =>
    obtain ⟨l, c, r, hl, -, -, ht⟩ := ha.turn
    have hturn : s.paid + s'.owed + 1 ≤ s'.paid + s.owed := ht.paid_le (s := s.wait _) hl
    omega

/-! ## What happens in a time -/

variable {ms : Nat}

theorem Polls.logs (h : Reachable s) (hp : Polls (s.bench.now + ms) n s s') :
    ∃ new, s'.bench.log = new ++ s.bench.log ∧
      ∀ e ∈ new, s.bench.now ≤ e.time ∧ e.time ≤ s.bench.now + ms := by
  obtain ⟨new, hlog, hlate⟩ := Moves.logs hp.moves
  refine ⟨new, hlog, fun e he => ⟨hlate e he, ?_⟩⟩
  have hpast := (h.moves hp.moves).past e (by simp [hlog, he])
  exact Nat.le_trans hpast (hp.now_le (Nat.le_add_right _ _))

/-- A cycle begins few ticks: they are spread. -/
theorem Polls.beginnings_le (h : Reachable s) (hp : Polls (s.bench.now + ms) n s s') (id : Nat) :
    (Entry.beginnings (s'.history id)).length ≤ (Entry.beginnings (s.history id)).length +
      (max ((ms + lateTolerance) / s.cadence.sendInterval)
        (ms ⌈/⌉ s.cadence.sendInterval) + 1) := by
  obtain ⟨new, hlog, hnew⟩ := hp.logs h
  have hsplit : s'.history id = s.history id ++ Entry.ofCycle id new := by
    rw [history, history, hlog, Entry.ofCycle, List.filter_append, List.reverse_append]
    rfl
  have hwithin : ∀ b ∈ Entry.beginnings (Entry.ofCycle id new),
      s.bench.now ≤ b ∧ b ≤ s.bench.now + ms := by
    intro b hb
    obtain ⟨e, he, rfl⟩ := List.mem_map.mp hb
    exact hnew e (List.mem_filter.mp (List.mem_reverse.mp (List.mem_of_mem_filter he))).1
  rcases (h.moves hp.moves).told id with ⟨hnone, -⟩ | ⟨k, laps, stage, rfl, hr⟩
  · rw [hnone]
    exact Nat.zero_le _
  · have hwindow := hr.spread.countP_window_le s'.cadence.sendInterval_pos s.bench.now ms
    rw [hsplit, Entry.beginnings_append, List.countP_append, hp.moves.cadence_eq] at hwindow
    rw [List.countP_eq_length.mpr fun b hb => decide_eq_true (hwithin b hb)] at hwindow
    rw [hsplit, Entry.beginnings_append, List.length_append]
    omega

/-- Few refreshes are armed: they are apart. -/
theorem Polls.length_refreshes_le (h : Reachable s) (hp : Polls (s.bench.now + ms) n s s') :
    s'.refreshTimes.length ≤ s.refreshTimes.length + (ms / s.cadence.refreshInterval + 1) := by
  obtain ⟨new, hlog, hnew⟩ := hp.logs h
  have hsplit : s'.refreshTimes =
      (new.filter (·.event.arms .slowRefresh)).map (·.time) ++ s.refreshTimes := by
    rw [refreshTimes, hlog, List.filter_append, List.map_append, refreshTimes]
  have hwithin : ∀ x ∈ (new.filter (·.event.arms .slowRefresh)).map (·.time),
      s.bench.now ≤ x ∧ x ≤ s.bench.now + ms := by
    intro x hx
    obtain ⟨e, he, rfl⟩ := List.mem_map.mp hx
    exact hnew e (List.mem_of_mem_filter he)
  have hapart := (h.moves hp.moves).spaced.apart
  rw [hsplit, List.pairwise_append, hp.moves.cadence_eq] at hapart
  have hroom := add_length_mul_le hapart.1 (fun x hx => (hwithin x hx).1)
    (fun x hx => Nat.add_le_add_right (hwithin x hx).2 s.cadence.refreshInterval) (by omega)
  rw [hsplit, List.length_append, Nat.add_comm,
    ← Nat.add_div_right ms s.cadence.refreshInterval_pos]
  refine Nat.add_le_add_left ?_ _
  rw [Nat.le_div_iff_mul_le s.cadence.refreshInterval_pos]
  omega

/-! ## All cycles -/

/-- A poll arms a refresh or no cycle at all. -/
theorem Turn.nextCycle_add {l r : List LiveCycle} {c : LiveCycle} (ht : Turn s l c r s') :
    s'.nextCycle + s.refreshTimes.length = s.nextCycle + s'.refreshTimes.length := by
  have hv (a : Attempt) (o : Outcome) : (a.verdict o).arms .slowRefresh = false :=
    a.arms_verdict o _
  have same {t : Scheduler} (hn : t.nextCycle = s.nextCycle)
      (hr : s.AddsNo (Event.arms .slowRefresh) t) :
      t.nextCycle + s.refreshTimes.length = s.nextCycle + t.refreshTimes.length := by
    obtain ⟨new, hlog, hnone⟩ := hr
    have hnil : new.filter (·.event.arms .slowRefresh) = [] :=
      List.filter_eq_nil_iff.mpr fun e he => by simp [hnone e he]
    rw [hn, refreshTimes, refreshTimes, hlog, List.filter_append, hnil, List.nil_append]
  cases ht with
  | cancelled | exhausted | sent => exact same rfl (.of_cons rfl rfl)
  | unsent | retried | delivered => exact same rfl (.of_cons rfl (hv _ _))
  | rearmed =>
    have hsame := same (t := { s.note (c.attempt.verdict .success) with live := l ++ r }) rfl
      (.of_cons rfl (hv _ _))
    rw [refreshTimes_arm, arm_nextCycle, List.length_cons]
    omega
  | notRearmed => exact same rfl ((AddsNo.of_cons rfl (hv _ _)).trans (.of_cons rfl rfl))

theorem Polls.nextCycle_add (h : Polls target n s s') :
    s'.nextCycle + s.refreshTimes.length = s.nextCycle + s'.refreshTimes.length := by
  induction h with
  | none => rfl
  | @next n s s' s'' ha _ ih =>
    obtain ⟨l, c, r, -, -, -, ht⟩ := ha.turn
    have hturn : s'.nextCycle + s.refreshTimes.length = s.nextCycle + s'.refreshTimes.length :=
      ht.nextCycle_add
    omega

theorem Reachable.length_beginnings_eq (h : Reachable s) {last : Nat} (hlast : s.nextCycle ≤ last) :
    (Entry.beginnings s.bench.log).length =
      ∑ id ∈ Finset.range last, (Entry.beginnings (s.history id)).length := by
  have hcycle : ∀ e ∈ s.bench.log, e.event.beginsTick = true →
      ∃ id < last, e.event.cycle? = some id := by
    intro e he hb
    have hsome : e.event.cycle? ≠ none := by
      intro hnone
      cases hev : e.event <;> simp [hev, Event.beginsTick, Event.isCall, Event.cycle?] at hb hnone
    obtain ⟨id, hc⟩ := Option.ne_none_iff_exists'.mp hsome
    exact ⟨id, Nat.lt_of_lt_of_le (h.cycle_lt he hc) hlast, hc⟩
  have hsum := countP_eq_sum _ hcycle
  simpa only [Entry.beginnings, history, List.length_map, ← List.countP_eq_length_filter] using
    hsum

/-- Only cycles that are live or newly armed begin ticks. -/
theorem Moves.beginnings_le (h : Reachable s) (hm : s.Moves s') {bound : Nat}
    (hb : ∀ id, (Entry.beginnings (s'.history id)).length ≤
      (Entry.beginnings (s.history id)).length + bound) :
    (Entry.beginnings s'.bench.log).length ≤ (Entry.beginnings s.bench.log).length +
      (s.live.length + (s'.nextCycle - s.nextCycle)) * bound := by
  have hle := hm.nextCycle_le h
  let active : Finset Nat := (s.live.map (·.attempt.cycle) ++
    List.range' s.nextCycle (s'.nextCycle - s.nextCycle)).toFinset
  have hcard : active.card ≤ s.live.length + (s'.nextCycle - s.nextCycle) :=
    Nat.le_trans (List.toFinset_card_le _) (by simp)
  have heach : ∀ id ∈ Finset.range s'.nextCycle, (Entry.beginnings (s'.history id)).length ≤
      (Entry.beginnings (s.history id)).length + if id ∈ active then bound else 0 := by
    intro id hid
    by_cases hactive : id ∈ active
    · rw [if_pos hactive]
      exact hb id
    · rw [if_neg hactive]
      have hout : id ∉ s.live.map (·.attempt.cycle) ∧
          id ∉ List.range' s.nextCycle (s'.nextCycle - s.nextCycle) := by
        simpa only [active, List.mem_toFinset, List.mem_append, not_or] using hactive
      have hgone : s.Gone id := fun c hc hcycle => hout.1 (List.mem_map.mpr ⟨c, hc, hcycle⟩)
      have hlt : id < s.nextCycle := by
        have hnew := hout.2
        rw [List.mem_range'_1] at hnew
        rw [Finset.mem_range] at hid
        omega
      rw [(hgone.spared h hlt hm).history]
      exact Nat.le_refl _
  calc (Entry.beginnings s'.bench.log).length
    _ = ∑ id ∈ Finset.range s'.nextCycle, (Entry.beginnings (s'.history id)).length :=
      (h.moves hm).length_beginnings_eq (Nat.le_refl _)
    _ ≤ ∑ id ∈ Finset.range s'.nextCycle, ((Entry.beginnings (s.history id)).length +
          if id ∈ active then bound else 0) := Finset.sum_le_sum heach
    _ = (Entry.beginnings s.bench.log).length +
          (Finset.range s'.nextCycle ∩ active).card * bound := by
      rw [Finset.sum_add_distrib, ← h.length_beginnings_eq hle, Finset.sum_ite_mem,
        Finset.sum_const, smul_eq_mul]
    _ ≤ _ := Nat.add_le_add_left (Nat.mul_le_mul_right _
        (Nat.le_trans (Finset.card_le_card Finset.inter_subset_right) hcard)) _

/-- So all polls are few. -/
theorem Polls.le (h : Reachable s) (hp : Polls (s.bench.now + ms) n s s') :
    n ≤ 2 * (s.live.length + (ms / s.cadence.refreshInterval + 1)) *
      (max ((ms + lateTolerance) / s.cadence.sendInterval)
        (ms ⌈/⌉ s.cadence.sendInterval) + 2) := by
  have howed : s.owed ≤ s.live.length * 2 := dues_le s.live
  have hpaid := hp.paid_le
  have hticks := hp.moves.beginnings_le h (hp.beginnings_le h)
  have hrefreshes := hp.length_refreshes_le h
  have hnext := hp.nextCycle_add
  generalize max ((ms + lateTolerance) / s.cadence.sendInterval)
    (ms ⌈/⌉ s.cadence.sendInterval) = b at hticks ⊢
  generalize ha : ms / s.cadence.refreshInterval + 1 = a at hrefreshes ⊢
  have hactive : s.live.length + (s'.nextCycle - s.nextCycle) ≤ s.live.length + a := by omega
  have hmul := Nat.mul_le_mul_right (b + 1) hactive
  rw [paid_eq, paid_eq] at hpaid
  calc n
    _ ≤ 2 * ((s.live.length + a) * (b + 1)) + 2 * (s.live.length + a) := by omega
    _ = 2 * (s.live.length + a) * (b + 2) := by
      rw [Nat.mul_assoc, ← Nat.mul_add, ← Nat.mul_succ]

/-- From anywhere on the way, polling comes to where nothing is ready. -/
theorem Polls.ends (h : Reachable s) (hp : Polls (s.bench.now + ms) n s s') :
    ∃ m s'', Polls (s.bench.now + ms) m s' s'' ∧
      ∀ c ∈ s''.live, s.bench.now + ms < s''.wakeTime c := by
  have hpasses : Passes (s.bench.now + ms) s'
      (s'.runUntil (fun _ => false) (s.bench.now + ms)) :=
    passes_runFor (fun _ hhalt => by cases hhalt) _ (h.moves hp.moves).sound
      (hp.now_le (Nat.le_add_right _ _)) (Nat.le_refl _)
  obtain ⟨m, hm⟩ := hpasses.polls
  exact ⟨m, _, hm, hpasses.atRest⟩

end Scheduler

open Scheduler

/-- **Time gets through.** However short the intervals are and whatever is answered, a sleep takes
few polls: in it each cycle begins no more ticks than send intervals fit into it, counting what the
tolerance lets it catch up on, and one more, and no more refreshes are armed than refresh intervals
fit into it, and one more. No polls can go on for ever, not even at one instant; from anywhere on
the way they come to where nothing is ready by the end of the sleep, and there the sleep ends. -/
theorem time_gets_through {s : Scheduler} (h : Reachable s) (ms : Nat) :
    let target := s.bench.now + ms
    let ticks := max ((ms + 5) / s.cadence.sendInterval) (ms ⌈/⌉ s.cadence.sendInterval) + 1
    let refreshes := ms / s.cadence.refreshInterval + 1
    (∀ n s', Polls target n s s' →
      (∀ id, (Entry.beginnings (s'.history id)).length ≤
        (Entry.beginnings (s.history id)).length + ticks) ∧
      s'.refreshTimes.length ≤ s.refreshTimes.length + refreshes ∧
      n ≤ 2 * (s.live.length + refreshes) * (ticks + 1) ∧
      ∃ m s'', Polls target m s' s'' ∧ ∀ c ∈ s''.live, target < s''.wakeTime c) ∧
    (∀ chain : Nat → Scheduler, chain 0 = s →
      ¬ ∀ n, Advances target (chain n) (chain (n + 1))) ∧
    ∃ n s', Polls target n s s' ∧ (∀ c ∈ s'.live, target < s'.wakeTime c) ∧
      s.sleep ms = s'.wait target := by
  intro target ticks refreshes
  refine ⟨fun n s' hp => ?_, ?_, ?_⟩
  · exact ⟨hp.beginnings_le h, hp.length_refreshes_le h, hp.le h, hp.ends h⟩
  · rintro chain rfl hchain
    have hpolls := polls_chain hchain (2 * ((chain 0).live.length + refreshes) * (ticks + 1) + 1)
    exact absurd (hpolls.le h) (Nat.not_succ_le_self _)
  · have hpasses : Passes target s (s.runUntil (fun _ => false) target) :=
      passes_runFor (fun _ hhalt => by cases hhalt) _ h.sound (Nat.le_add_right _ _) (Nat.le_refl _)
    obtain ⟨n, hp⟩ := hpasses.polls
    exact ⟨n, _, hp, hpasses.atRest, rfl⟩

namespace Simulation

/-- All requests are refused at once; a sleep of 25 ms ends within 20 polls. -/
theorem refusals_let_time_pass :
    let s := (sampled [] .refused [.start]).scheduler
    (s.sleep 25).bench.now = 25 ∧ Entry.beginnings ((s.sleep 25).history 1) = [0, 10, 20] ∧
      ∃ n s', Polls 25 n s s' ∧ n ≤ 20 ∧ s.sleep 25 = s'.wait 25 := by
  intro s
  have h := reachable_sampled [] .refused [.start]
  obtain ⟨few, -, n, s', hp, -, hsleep⟩ := time_gets_through h 25
  exact ⟨by decide, by decide, n, s', hp, (few n s' hp).2.2.1, hsleep⟩

end Simulation
end Heartbeat
