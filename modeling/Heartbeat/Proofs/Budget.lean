import Heartbeat.Proofs.Spacing
import Mathlib.Algebra.BigOperators.Ring.Finset
import Mathlib.Algebra.Order.BigOperators.Group.Finset

/-!
# Heartbeat.Proofs.Budget

How many sends a run can have made.

* `Recorded.sendings_le_maxTries` — a cycle with a limit sends no more often than that.
* `Recorded.sendings_le_rate`     — a cycle sends once for each send interval that it has had, and
  once more.
* `Reachable.due_le`              — one refresh for each refresh interval since the bring-up has
  come due.
* `countP_eq_sum`                 — what the log counts is counted cycle by cycle.
* `Asked`                         — moves with a number of accepted refreshes among them.
-/

namespace Heartbeat

/-! ## One cycle -/

theorem Event.beginsTick_of_isSending {e : Event} (h : e.isSending = true) :
    e.beginsTick = true := by
  cases e <;> first | rfl | cases h

namespace Course

variable (k : Course) (c : Cadence)

theorem arming_mem_ticked (laps : List Lap) :
    ⟨k.armed, .armed k.id k.kind (k.policy c).initialDelay⟩ ∈ k.ticked c laps := by
  induction laps with
  | nil => exact List.mem_singleton_self _
  | cons x earlier ih => exact List.mem_append_left _ ih

theorem sendings_ticked_le (laps : List Lap) :
    Entry.sendings (k.ticked c laps) ≤ laps.length := by
  induction laps with
  | nil => simp [ticked, Entry.sendings, Event.isSending]
  | cons x earlier ih =>
    have hx : Entry.sendings (x.entries (k.attempt c earlier).count (k.slot c earlier).begins) ≤
        1 := by
      cases x with
      | unsent => simp [Lap.entries, Entry.sendings]
      | sent d =>
        have hd : (Event.sending (k.attempt c earlier).count.cycle d.agentId).isSending = true := rfl
        simp [Lap.entries, Entry.sendings, hd]
    simp only [Entry.sendings, ticked, List.countP_append, List.length_cons] at ih hx ⊢
    omega

theorem sendings_closing (laps : List Lap) (stage : Stage) :
    Entry.sendings (k.closing c laps stage) =
      match stage with
      | .waiting .. => 1
      | _ => 0 := by
  cases stage with
  | delivered late => cases late <;> rfl
  | _ => rfl

theorem sendings_entries (laps : List Lap) (stage : Stage) :
    Entry.sendings (k.entries c laps stage) =
      Entry.sendings (k.ticked c laps) + Entry.sendings (k.closing c laps stage) :=
  List.countP_append

theorem allows_le (h : k.kind ≠ .fastBringup) {n : Nat}
    (ha : (k.policy c).maxTries.allows n = true) : n ≤ c.maxTries := by
  cases hk : k.kind with
  | fastBringup => exact absurd hk h
  | slowRefresh => simpa [policy, hk, Cycle.ofKind, Cycle.slowRefresh, MaxTries.allows] using ha
  | adHoc => simpa [policy, hk, Cycle.ofKind, Cycle.adHoc, MaxTries.allows] using ha

end Course

namespace Scheduler

variable {s s' : Scheduler} {k : Course} {laps : List Lap} {stage : Stage}

/-- A cycle with a limit has no more sends than that. -/
theorem Recorded.sendings_le_maxTries (h : s.Recorded k laps stage) (hk : k.kind ≠ .fastBringup) :
    Entry.sendings (s.history k.id) ≤ s.cadence.maxTries := by
  have hticked := k.sendings_ticked_le s.cadence laps
  have hlaps : laps.length ≤ s.cadence.maxTries := by
    cases h.ran with
    | armed => exact Nat.zero_le _
    | lap _ _ ha => exact k.allows_le s.cadence hk ha
  rw [h.history, k.sendings_entries, k.sendings_closing]
  cases h.stands with
  | idle | delivered | rearmed | notRearmed | exhausted | cancelled =>
    exact Nat.le_trans hticked hlaps
  | waiting _ ha =>
    have := k.allows_le s.cadence hk ha
    simp only
    omega

/-- Nothing is sent before the first tick is due. -/
theorem Recorded.sendings_eq_zero (h : s.Recorded k laps stage)
    (hn : s.bench.now < k.armed + (k.policy s.cadence).initialDelay) :
    Entry.sendings (s.history k.id) = 0 := by
  have hbegins : s.bench.now < (k.slot s.cadence laps).begins :=
    Nat.lt_of_lt_of_le hn (Nat.le_trans (Nat.le_add_right _ _) (k.add_mul_le_begins s.cadence laps))
  have hlaps : laps = [] := by
    cases laps with
    | nil => rfl
    | cons x earlier =>
      have hended := h.ran.ended_le
      have := k.add_mul_le_begins s.cadence earlier
      simp only [Course.ended] at hended
      omega
  subst hlaps
  rw [h.history, k.sendings_entries, k.sendings_closing]
  cases h.stands with
  | idle | delivered | rearmed | notRearmed | exhausted | cancelled => rfl
  | waiting _ _ _ hb => omega

/-- A cycle that has begun no tick after a time has sent at most once for each send interval up to
that time, and once more. -/
theorem Recorded.sendings_le_rate (h : s.Recorded k laps stage) {b : Nat}
    (hb : ∀ x ∈ Entry.beginnings (s.history k.id), x ≤ b) :
    Entry.sendings (s.history k.id) ≤ (b - k.armed) / s.cadence.sendInterval + 1 := by
  have hle : Entry.sendings (s.history k.id) ≤ (Entry.beginnings (s.history k.id)).length := by
    rw [Entry.beginnings, List.length_map, ← List.countP_eq_length_filter]
    refine List.countP_mono_left ?_
    exact fun e _ he => Event.beginsTick_of_isSending he
  generalize hn : (Entry.beginnings (s.history k.id)).length = n at hle
  cases n with
  | zero => exact Nat.le_trans hle (Nat.zero_le _)
  | succ n =>
    have hlt : n < (Entry.beginnings (s.history k.id)).length := by omega
    have hget := List.getElem?_eq_getElem hlt
    have hrate := h.paced.rate hget
    have hlast := hb _ (List.getElem_mem hlt)
    rw [show (k.policy s.cadence).period = s.cadence.sendInterval from
      period_ofKind s.cadence k.kind] at hrate
    have : n ≤ (b - k.armed) / s.cadence.sendInterval := by
      rw [Nat.le_div_iff_mul_le s.cadence.sendInterval_pos]
      omega
    omega

/-- A tick that delivers is the last of its cycle. -/
theorem Ran.delivered_mem (h : s.Ran k laps) {time id tick : Nat} {kind : CycleKind}
    (hm : ⟨time, .delivered id kind tick⟩ ∈ k.ticked s.cadence laps) :
    ¬ Lap.AllFail laps ∧ time = k.ended s.cadence laps ∧ kind = k.kind := by
  induction h with
  | armed => simp [Course.ticked] at hm
  | @lap x earlier _ hf _ _ _ ih =>
    rcases List.mem_append.mp hm with hm | hm
    · exact absurd hf (ih hm).1
    · cases x with
      | unsent => simp [Lap.entries, Attempt.verdict, Outcome.fail] at hm
      | sent d lasted o =>
        cases o with
        | failure | timeout => simp [Lap.entries, Attempt.verdict] at hm
        | success =>
          simp only [Lap.entries, Attempt.verdict, List.mem_cons, Entry.mk.injEq, reduceCtorEq,
            and_false, List.not_mem_nil, or_false, false_or] at hm
          simp only [Event.delivered.injEq] at hm
          refine ⟨?_, hm.1, hm.2.2.1⟩
          intro hall
          have := hall _ (List.mem_cons_self ..)
          cases this

theorem Recorded.beginnings_le (h : s.Recorded k laps stage) {time id tick : Nat}
    {kind : CycleKind} (hm : ⟨time, .delivered id kind tick⟩ ∈ s.history k.id) :
    kind = k.kind ∧ ∀ x ∈ Entry.beginnings (s.history k.id), x ≤ time := by
  obtain ⟨_, _, hb, _⟩ := h.ran.paced
  rw [h.history, Course.entries] at hm ⊢
  rw [Entry.beginnings_append]
  rcases List.mem_append.mp hm with hm | hm
  · obtain ⟨hnot, rfl, hkind⟩ := h.ran.delivered_mem hm
    refine ⟨hkind, ?_⟩
    cases h.stands with
    | idle hf | waiting hf | exhausted hf | cancelled hf => exact absurd hf hnot
    | delivered | rearmed | notRearmed =>
      simpa [Course.closing, Entry.beginnings, Event.beginsTick, Event.isCall] using hb
  · cases stage with
    | delivered late => cases late <;> simp [Course.closing] at hm
    | _ => simp [Course.closing] at hm

/-! ## All cycles -/

/-- What a log counts of its cycles is counted cycle by cycle. -/
theorem countP_eq_sum (p : Entry → Bool) {n : Nat} {log : List Entry}
    (h : ∀ e ∈ log, p e = true → ∃ id < n, e.event.cycle? = some id) :
    log.countP p = ∑ id ∈ Finset.range n, (Entry.ofCycle id log).countP p := by
  induction log with
  | nil => simp [Entry.ofCycle]
  | cons e log ih =>
    have hrest := ih (fun x hx => h x (List.mem_cons_of_mem _ hx))
    by_cases hp : p e = true
    · obtain ⟨id, hid, hc⟩ := h e (List.mem_cons_self ..) hp
      have hsplit : ∀ i, (Entry.ofCycle i (e :: log)).countP p =
          (Entry.ofCycle i log).countP p + if i = id then 1 else 0 := by
        intro i
        by_cases hi : i = id
        · subst hi
          simp [Entry.ofCycle, hc, hp]
        · simp [Entry.ofCycle, hc, hi, Ne.symm hi]
      simp only [hsplit, Finset.sum_add_distrib, Finset.sum_ite_eq', Finset.mem_range, hid,
        if_true, ← hrest, List.countP_cons, hp]
    · have hsame : ∀ i, (Entry.ofCycle i (e :: log)).countP p = (Entry.ofCycle i log).countP p := by
        intro i
        by_cases hi : e.event.cycle? = some i
        · simp [Entry.ofCycle, hi, hp]
        · simp [Entry.ofCycle, hi]
      simp only [hsame, ← hrest, List.countP_cons, hp]
      rfl

theorem mem_log_of_mem_history {e : Entry} {id : Nat} (h : e ∈ s.history id) : e ∈ s.bench.log :=
  (List.mem_filter.mp (List.mem_reverse.mp h)).1

theorem Recorded.arming_mem (h : s.Recorded k laps stage) :
    ⟨k.armed, .armed k.id k.kind (k.policy s.cadence).initialDelay⟩ ∈ s.history k.id := by
  rw [h.history]
  exact List.mem_append_left _ (k.arming_mem_ticked s.cadence laps)

/-- An entry of a cycle tells of one that is on its course. -/
theorem Reachable.recorded_of_mem (h : Reachable s) {e : Entry} (he : e ∈ s.bench.log) {id : Nat}
    (hc : e.event.cycle? = some id) :
    ∃ k laps stage, k.id = id ∧ s.Recorded k laps stage ∧ e ∈ s.history k.id := by
  have hmem : e ∈ s.history id := by simpa [history, Entry.ofCycle, hc] using he
  rcases h.told id with ⟨hh, _⟩ | ⟨k, laps, stage, rfl, hr⟩
  · rw [hh] at hmem
    cases hmem
  · exact ⟨k, laps, stage, rfl, hr, hmem⟩

theorem Reachable.cycle_lt (h : Reachable s) {e : Entry} (he : e ∈ s.bench.log) {id : Nat}
    (hc : e.event.cycle? = some id) : id < s.nextCycle := by
  obtain ⟨k, _, _, rfl, hr, _⟩ := h.recorded_of_mem he hc
  exact hr.named

/-- Times that are apart by a distance and lie between two others take up room. -/
theorem add_length_mul_le {distance first last : Nat} {times : List Nat}
    (h : times.Pairwise fun later earlier => earlier + distance ≤ later)
    (hf : ∀ x ∈ times, first ≤ x) (hl : ∀ x ∈ times, x + distance ≤ last)
    (hle : first ≤ last) : first + times.length * distance ≤ last := by
  induction times generalizing last with
  | nil => simpa using hle
  | cons x times ih =>
    obtain ⟨hx, ht⟩ := List.pairwise_cons.mp h
    have hfx := hf x (List.mem_cons_self ..)
    have hlx := hl x (List.mem_cons_self ..)
    have := ih ht (fun y hy => hf y (List.mem_cons_of_mem _ hy)) hx hfx
    rw [List.length_cons, Nat.add_mul, Nat.one_mul]
    omega

/-- Whether an entry arms a slow refresh that has come due. -/
def armsDue (s : Scheduler) (e : Entry) : Bool :=
  e.event.arms .slowRefresh && e.time + s.cadence.refreshInterval ≤ s.bench.now

/-- The time of the bring-up's delivery, or now if there has been none. -/
def BringupEnds (s : Scheduler) (b : Nat) : Prop :=
  s.BroughtUpAt b ∨ b = s.bench.now ∧ ∀ time, ¬ s.BroughtUpAt time

theorem Reachable.due_le (h : Reachable s) {b : Nat} (hb : s.BringupEnds b) :
    s.bench.log.countP s.armsDue ≤ (s.bench.now - b) / s.cadence.refreshInterval := by
  have hsp := h.spaced
  have hcount : s.bench.log.countP s.armsDue =
      (s.refreshTimes.filter (· + s.cadence.refreshInterval ≤ s.bench.now)).length := by
    rw [refreshTimes, List.filter_map, List.length_map, List.filter_filter,
      ← List.countP_eq_length_filter]
    refine List.countP_congr ?_
    intro e _
    simp [armsDue, and_comm]
  rw [hcount, Nat.le_div_iff_mul_le s.cadence.refreshInterval_pos]
  rcases hb with hb | ⟨rfl, hb⟩
  · have hle : b ≤ s.bench.now := by
      obtain ⟨id, tick, hm⟩ := hb
      exact h.past _ hm
    have hroom := add_length_mul_le (hsp.apart.filter (· + s.cadence.refreshInterval ≤ s.bench.now))
      (fun x hx => hsp.after x (List.mem_of_mem_filter hx) b hb)
      (fun x hx => by simpa using (List.mem_filter.mp hx).2) hle
    omega
  · have hnone : s.refreshTimes = [] := by
      by_contra hne
      obtain ⟨b, hup⟩ := hsp.broughtUp hne
      exact hb b hup
    simp [hnone]

/-- The sends of one cycle are covered by what its kind may send. -/
theorem Reachable.sendings_history_le (h : Reachable s) {start first b : Nat} (hb : s.BringupEnds b)
    (hs : ∀ e ∈ s.bench.log, e.event.arms .fastBringup = true →
      e = ⟨start, .armed first .fastBringup 0⟩) (id : Nat) :
    Entry.sendings (s.history id) ≤
      ((b - start) / s.cadence.sendInterval + 1) *
          (s.history id).countP (·.event.arms .fastBringup) +
        s.cadence.maxTries * (s.history id).countP s.armsDue +
        s.cadence.maxTries * (s.history id).countP (·.event.arms .adHoc) := by
  rcases h.told id with ⟨hh, _⟩ | ⟨k, laps, stage, rfl, hr⟩
  · simp [hh, Entry.sendings]
  have harm := hr.arming_mem
  have hlog : ∀ e ∈ s.history k.id, e ∈ s.bench.log := fun e he => mem_log_of_mem_history he
  have hone : ∀ {p : Entry → Bool},
      p ⟨k.armed, .armed k.id k.kind (k.policy s.cadence).initialDelay⟩ = true →
      1 ≤ (s.history k.id).countP p := fun hp => List.countP_pos_iff.mpr ⟨_, harm, hp⟩
  cases hk : k.kind with
  | fastBringup =>
    have hfirst := hs _ (hlog _ harm) (by simp [Event.arms, hk])
    simp only [Entry.mk.injEq, Event.armed.injEq] at hfirst
    have hb' : ∀ x ∈ Entry.beginnings (s.history k.id), x ≤ b := by
      rcases hb with ⟨id, tick, hm⟩ | ⟨rfl, _⟩
      · -- the cycle delivered is this one: no other bring-up was ever armed
        obtain ⟨k', _, _, rfl, hr', hmem⟩ := h.recorded_of_mem hm rfl
        obtain ⟨hkind, hle⟩ := hr'.beginnings_le hmem
        have hfirst' := hs _ (mem_log_of_mem_history hr'.arming_mem) (by simp [Event.arms, ← hkind])
        simp only [Entry.mk.injEq, Event.armed.injEq] at hfirst'
        rw [hfirst.2.1, ← hfirst'.2.1]
        exact hle
      · intro x hx
        obtain ⟨e, he, rfl⟩ := List.mem_map.mp hx
        exact h.past e (hlog e (List.mem_of_mem_filter he))
    have hrate := hr.sendings_le_rate hb'
    rw [hfirst.1] at hrate
    have := Nat.mul_le_mul_left ((b - start) / s.cadence.sendInterval + 1)
      (hone (p := (·.event.arms .fastBringup)) (by simp [Event.arms, hk]))
    omega
  | slowRefresh =>
    by_cases hdue : k.armed + s.cadence.refreshInterval ≤ s.bench.now
    · have hmax := hr.sendings_le_maxTries (by simp [hk])
      have := Nat.mul_le_mul_left s.cadence.maxTries
        (hone (p := s.armsDue) (by simp [armsDue, Event.arms, hk, hdue]))
      omega
    · have hzero := hr.sendings_eq_zero (by
        simp only [Course.policy, hk, Cycle.ofKind, Cycle.slowRefresh]
        omega)
      omega
  | adHoc =>
    have hmax := hr.sendings_le_maxTries (by simp [hk])
    have := Nat.mul_le_mul_left s.cadence.maxTries
      (hone (p := (·.event.arms .adHoc)) (by simp [Event.arms, hk]))
    omega

/-- The sends of all cycles. -/
theorem Reachable.sends_le (h : Reachable s) {start first b : Nat} (hb : s.BringupEnds b)
    (hs : ∀ e ∈ s.bench.log, e.event.arms .fastBringup = true →
      e = ⟨start, .armed first .fastBringup 0⟩) :
    s.bench.transport.sends.length ≤
      ((b - start) / s.cadence.sendInterval + 1) *
          s.bench.log.countP (·.event.arms .fastBringup) +
        s.cadence.maxTries * ((s.bench.now - b) / s.cadence.refreshInterval) +
        s.cadence.maxTries * s.bench.log.countP (·.event.arms .adHoc) := by
  have hof : ∀ {p : Entry → Bool}, (∀ e, p e = true → e.event.cycle? ≠ none) →
      ∀ e ∈ s.bench.log, p e = true → ∃ id < s.nextCycle, e.event.cycle? = some id := by
    intro p hp e he hpe
    obtain ⟨id, hc⟩ := Option.ne_none_iff_exists'.mp (hp e hpe)
    exact ⟨id, h.cycle_lt he hc, hc⟩
  have harms : ∀ kind (e : Entry), e.event.arms kind = true → e.event.cycle? ≠ none := by
    intro kind e he hc
    rw [Event.arms_of_cycle? hc] at he
    cases he
  have hsend : ∀ e : Entry, e.event.isSending = true → e.event.cycle? ≠ none := by
    intro e he hc
    rw [(Event.isCall_of_cycle? hc).2] at he
    cases he
  have hdue : ∀ e : Entry, s.armsDue e = true → e.event.cycle? ≠ none := by
    intro e he
    simp only [armsDue, Bool.and_eq_true] at he
    exact harms _ e he.1
  have hsum := Finset.sum_le_sum fun id (_ : id ∈ Finset.range s.nextCycle) =>
    h.sendings_history_le hb hs id
  have hrefreshes := Nat.mul_le_mul_left s.cadence.maxTries (h.due_le hb)
  simp only [Finset.sum_add_distrib, ← Finset.mul_sum] at hsum
  rw [h.follows.sends]
  simp only [Entry.sendings, history] at hsum
  rw [← countP_eq_sum _ (hof hsend), ← countP_eq_sum _ (hof (harms .fastBringup)),
    ← countP_eq_sum _ (hof hdue), ← countP_eq_sum _ (hof (harms .adHoc))] at hsum
  rw [Entry.sendings]
  omega

/-! ## Calls -/

/-- Moves with so many accepted refreshes among them. -/
inductive Asked (s : Scheduler) : Nat → Scheduler → Prop where
  | refl : Asked s 0 s
  | refreshed {n : Nat} {s' : Scheduler} :
      Asked s n s' → s'.refresh.1 = true → Asked s (n + 1) s'.refresh.2
  | moved {n : Nat} {s' s'' : Scheduler} :
      Asked s n s' → Move s' s'' → ¬ (s'.refresh.1 = true ∧ s'' = s'.refresh.2) → Asked s n s''

theorem Asked.moves {n : Nat} (h : s.Asked n s') : s.Moves s' := by
  induction h with
  | refl => exact .refl
  | refreshed _ _ ih => exact .tail ih .refresh
  | moved _ hm _ ih => exact .tail ih hm

/-- Every run of moves has asked for some number of refreshes. -/
theorem Moves.asked (h : s.Moves s') : ∃ n, s.Asked n s' := by
  induction h with
  | refl => exact ⟨0, .refl⟩
  | @tail s' s'' _ hm ih =>
    obtain ⟨n, ih⟩ := ih
    by_cases hr : s'.refresh.1 = true ∧ s'' = s'.refresh.2
    · obtain ⟨hr, rfl⟩ := hr
      exact ⟨n + 1, .refreshed ih hr⟩
    · exact ⟨n, .moved ih hm hr⟩

/-- Only an accepted refresh arms an ad hoc cycle. -/
theorem Move.adHocs (hm : Move s s') (hr : ¬ (s.refresh.1 = true ∧ s' = s.refresh.2)) :
    s'.bench.log.countP (·.event.arms .adHoc) = s.bench.log.countP (·.event.arms .adHoc) := by
  have hcons : ∀ (time : Nat) {e : Event} (log : List Entry), e.arms .adHoc = false →
      (⟨time, e⟩ :: log : List Entry).countP (·.event.arms .adHoc) =
        log.countP (·.event.arms .adHoc) :=
    fun _ _ _ he => List.countP_cons_of_neg (by simp [he])
  cases hm.effect with
  | started => exact hcons _ _ rfl
  | refreshed hrun =>
    refine absurd ⟨?_, ?_⟩ hr <;> simp [Scheduler.refresh, hrun]
  | noted he => exact hcons _ _ (Event.arms_of_cycle? he _)
  | shutDown | unchanged | released | waited => rfl
  | polled _ _ ht =>
    cases ht with
    | cancelled | exhausted | sent => exact hcons _ _ rfl
    | unsent | retried | delivered => exact hcons _ _ (Attempt.arms_verdict _ _ _)
    | rearmed | notRearmed =>
      exact (hcons _ _ rfl).trans (hcons _ _ (Attempt.arms_verdict _ _ _))

theorem Asked.adHocs {n : Nat} (h : s.Asked n s') :
    s'.bench.log.countP (·.event.arms .adHoc) =
      s.bench.log.countP (·.event.arms .adHoc) + n := by
  induction h with
  | refl => rfl
  | @refreshed n s' _ hr ih =>
    have hrun : s'.lifecycle = .running := by
      by_contra hne
      simp [refresh, hne] at hr
    rw [refresh, if_pos hrun]
    simp only [arm, note_bench, Bench.note_log, List.countP_cons]
    rw [ih]
    simp [Event.arms, Cycle.adHoc, Nat.add_assoc]
  | moved _ hm hr ih => rw [hm.adHocs hr, ih]

/-- A scheduler is started once. -/
theorem Moves.bringups (h : s.Moves s') (hs : s.lifecycle ≠ .created) :
    s'.lifecycle ≠ .created ∧ s.AddsNo (Event.arms .fastBringup) s' := by
  induction h with
  | refl => exact ⟨hs, .refl _ _⟩
  | @tail s' s'' _ hm ih =>
    obtain ⟨hne, ih⟩ := ih
    cases hm.effect with
    | started hc => exact absurd hc hne
    | refreshed => exact ⟨hne, ih.trans (.of_cons rfl rfl)⟩
    | shutDown => exact ⟨by simp [shutDown], ih⟩
    | noted he => exact ⟨hne, ih.trans (.of_cons rfl (Event.arms_of_cycle? he _))⟩
    | unchanged | released | waited => exact ⟨hne, ih⟩
    | @polled _ l r c _ _ ht =>
      have hv : ∀ o, s'.AddsNo (Event.arms .fastBringup) (s'.note (c.attempt.verdict o)) :=
        fun o => .of_cons rfl (Attempt.arms_verdict _ _ _)
      cases ht with
      | cancelled | exhausted | sent => exact ⟨hne, ih.trans (.of_cons rfl rfl)⟩
      | unsent => exact ⟨hne, ih.trans (.of_cons rfl (Attempt.arms_verdict _ _ _))⟩
      | retried | delivered => exact ⟨hne, ih.trans (hv _)⟩
      | rearmed | notRearmed => exact ⟨hne, ih.trans ((hv _).trans (.of_cons rfl rfl))⟩

end Scheduler

open Scheduler

/-- **Retries keep to a budget.** A run that was started, and asked for some refreshes since, has
sent no more than once for each send interval up to the delivery of the bring-up, and once more;
than the greatest number of tries for each refresh interval since; and than that for each refresh
that was asked for. -/
theorem sends_within_budget {s₀ s : Scheduler} {refreshes b : Nat} (h : Reachable s₀)
    (started : s₀.start.1 = true) (run : s₀.start.2.Asked refreshes s) (ends : s.BringupEnds b) :
    s.bench.transport.sends.length ≤
      (b - s₀.bench.now) / s.cadence.sendInterval + 1 +
        s.cadence.maxTries * ((s.bench.now - b) / s.cadence.refreshInterval) +
        s.cadence.maxTries * refreshes := by
  have hcreated : s₀.lifecycle = .created := by
    by_contra hne
    simp [Scheduler.start, hne] at started
  have hstart : s₀.start.2.bench.log =
      ⟨s₀.bench.now, .armed s₀.nextCycle .fastBringup 0⟩ :: s₀.bench.log := by
    rw [Scheduler.start, if_pos hcreated]
    rfl
  have hnone : ∀ kind, s₀.bench.log.countP (·.event.arms kind) = 0 := by
    intro kind
    rw [List.countP_eq_zero]
    intro e he
    simp [Event.arms_of_cycle? (h.unarmed hcreated e he)]
  have hrunning : s₀.start.2.lifecycle ≠ .created := by
    rw [Scheduler.start, if_pos hcreated]
    simp [arm, note]
  have hr : Reachable s := (h.move .start).moves run.moves
  have honce := (run.moves.bringups hrunning).2
  have hfirst : ∀ e ∈ s.bench.log, e.event.arms .fastBringup = true →
      e = ⟨s₀.bench.now, .armed s₀.nextCycle .fastBringup 0⟩ := by
    intro e he ha
    rw [honce.mem_iff ha, hstart, List.mem_cons] at he
    rcases he with rfl | he
    · rfl
    · rw [Event.arms_of_cycle? (h.unarmed hcreated e he)] at ha
      cases ha
  have hbring : s.bench.log.countP (·.event.arms .fastBringup) = 1 := by
    obtain ⟨new, hl, hn⟩ := honce
    have hnew : new.countP (·.event.arms .fastBringup) = 0 := by
      rw [List.countP_eq_zero]
      intro e he
      simp [hn e he]
    rw [hl, List.countP_append, hnew, hstart, List.countP_cons, hnone]
    rfl
  have hasked : s.bench.log.countP (·.event.arms .adHoc) = refreshes := by
    rw [run.adHocs, hstart, List.countP_cons, hnone]
    simp [Event.arms]
  have hle := hr.sends_le ends hfirst
  rw [hbring, hasked, Nat.mul_one] at hle
  exact hle

namespace Simulation

/-- A reporter whose first request is refused, asked for one refresh on the way. -/
def hasty : Simulation := sampled [.refused] .ack [.start, .sleep 5, .refresh, .sleep 200]

/-- It sends at 0, 5, 10 and 110 ms, and its bring-up is delivered at 10 ms: the budget is 6. -/
theorem hasty_within_budget :
    hasty.scheduler.bench.transport.sends.length = 4 ∧
      hasty.scheduler.bench.transport.sends.length ≤ 10 / 10 + 1 + 2 * (195 / 100) + 2 * 1 := by
  let s₀ := (sample [.refused] .ack).scheduler
  have fresh : Reachable s₀ := reachable_sampled [.refused] .ack []
  have started : s₀.start.1 = true := by decide
  have moves : s₀.start.2.Moves hasty.scheduler :=
    moves_run (m := ((sample [.refused] .ack).apply .start).2) (fresh.move .start).sound
      [.sleep 5, .refresh, .sleep 200]
  obtain ⟨refreshes, run⟩ := moves.asked
  have asked : refreshes = 1 := by
    have before : s₀.start.2.bench.log.countP (·.event.arms .adHoc) = 0 := by decide
    have after : hasty.scheduler.bench.log.countP (·.event.arms .adHoc) = 1 := by decide
    have := run.adHocs
    omega
  have ends : hasty.scheduler.BringupEnds 10 := .inl ⟨1, 2, by decide⟩
  have budget := sends_within_budget fresh started run ends
  rw [asked] at budget
  exact ⟨by decide, budget⟩

end Simulation
end Heartbeat
