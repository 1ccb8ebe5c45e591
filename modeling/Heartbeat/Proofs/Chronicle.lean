import Heartbeat.Proofs.Course
import Heartbeat.Proofs.Shutdown

/-!
# Heartbeat.Proofs.Chronicle

Every cycle takes the course that its timetable lays down.

* `Turn.recorded`      — a poll is one step of the course of the cycle polled.
* `Told`               — the invariant: a number belongs to no cycle yet, or to one on its course.
* `Reachable.recorded` — so every cycle that the log says was armed is on its course.
* `Moves.cut`          — a stop leaves of a course no more than the tick under way.
-/

namespace Heartbeat

namespace Scheduler

variable {s s' : Scheduler} {k : Course} {laps : List Lap} {stage : Stage}

theorem wakeTime_idleCycle_le (s : Scheduler) (k : Course) (laps : List Lap) :
    s.wakeTime (k.idleCycle s.cadence laps) ≤ (k.slot s.cadence laps).begins := by
  have hle := k.deadline_le_begins s.cadence laps
  simp only [wakeTime, Course.idleCycle]
  split
  · exact Nat.zero_le _
  · exact hle

theorem ending_waitingCycle (s : Scheduler) (k : Course) (laps : List Lap) (send : Nat) :
    s.ending (k.waitingCycle s.cadence laps send) (k.slot s.cadence laps).deadline
        ((k.slot s.cadence laps).begins - (k.slot s.cadence laps).deadline) send =
      s.bench.awaits send (k.slot s.cadence laps).begins s.cadence.responseTimeout := by
  have hle := k.deadline_le_begins s.cadence laps
  have hb : (k.slot s.cadence laps).deadline +
      ((k.slot s.cadence laps).begins - (k.slot s.cadence laps).deadline) =
      (k.slot s.cadence laps).begins := by omega
  rw [ending, hb]
  rfl

/-! ## A cycle that is left alone -/

theorem Stands.spared (h : s.Stands k laps stage)
    (hlive : ∀ x, k.live s.cadence laps stage = some x → x ∈ s.live ∧ x ∈ s'.live)
    (hs' : s'.Sound) (hm : Move s s') : s'.Stands k laps stage := by
  have hg := hm.grows
  have hc := hm.cadence_eq
  cases h with
  | idle hf hn =>
    refine .idle hf ?_
    have hle := hm.now_le (hlive _ rfl).1
    have hw := s.wakeTime_idleCycle_le k laps
    rw [hc]
    omega
  | @waiting d send older hf ha hd hb hn =>
    obtain ⟨hb', _, hn'⟩ := (hs'.each _ (hlive _ rfl).2).begun rfl
    rw [← hc] at ha hd hb hn'
    rw [ending_waitingCycle] at hn'
    exact .waiting hf ha (hd.grow hg) (Nat.le_trans hb hg.now) hn'
  | delivered ho hk => exact .delivered ho hk
  | rearmed ho hk hlog =>
    rw [← hc] at hlog
    exact .rearmed ho hk (hlog.trans hg.log)
  | notRearmed ho hk hst => exact .notRearmed ho hk (hm.windsDown hst).lifecycle
  | exhausted hf ha hb =>
    rw [← hc] at ha hb
    exact .exhausted hf ha (Nat.le_trans hb hg.now)
  | cancelled hf hst he hb hn =>
    rw [← hc] at he hb
    exact .cancelled hf (hm.windsDown hst).lifecycle he hb (Nat.le_trans hn hg.now)

theorem Recorded.spared (h : s.Recorded k laps stage) (hs' : s'.Sound) (hm : Move s s')
    (hsp : Spares s s' k.id) (hn : s.nextCycle ≤ s'.nextCycle) : s'.Recorded k laps stage where
  named := Nat.lt_of_lt_of_le h.named hn
  history := by rw [hsp.history, h.history, hm.cadence_eq]
  live x := by
    rw [hm.cadence_eq, ← h.live x]
    exact and_congr_left (hsp.live x)
  ran := h.ran.grow hm.grows hm.cadence_eq
  stands := by
    refine h.stands.spared (fun x hx => ?_) hs' hm
    obtain ⟨hmem, hid⟩ := (h.live x).mpr hx
    exact ⟨hmem, (hsp.live x hid).mpr hmem⟩

/-! ## A cycle that is polled -/

section Polled

variable {l r : List LiveCycle} {c c' : LiveCycle}

theorem live_of_replaced (hs : s.Sound) (hl : s.live = l ++ c :: r)
    (hl' : s'.live = l ++ c' :: r) (hid : c'.attempt.cycle = c.attempt.cycle) (x : LiveCycle) :
    x ∈ s'.live ∧ x.attempt.cycle = c.attempt.cycle ↔ some c' = some x := by
  have hne := hs.cycle_ne hl
  rw [hl', Option.some.injEq, List.mem_append, List.mem_cons]
  constructor
  · rintro ⟨hx | rfl | hx, hcx⟩
    · exact absurd hcx (hne x (List.mem_append_left _ hx))
    · rfl
    · exact absurd hcx (hne x (List.mem_append_right _ hx))
  · rintro rfl
    exact ⟨.inr (.inl rfl), hid⟩

theorem live_of_removed (hs : s.Sound) (hl : s.live = l ++ c :: r)
    (hl' : ∀ x ∈ s'.live, x ∈ l ++ r ∨ x.attempt.cycle ≠ c.attempt.cycle) (x : LiveCycle) :
    x ∈ s'.live ∧ x.attempt.cycle = c.attempt.cycle ↔ none = some x := by
  constructor
  · rintro ⟨hx, hcx⟩
    rcases hl' x hx with hx | hx
    · exact absurd hcx (hs.cycle_ne hl x hx)
    · exact absurd hcx hx
  · intro hx
    cases hx

theorem history_of_cons {id time : Nat} {e : Event} (he : e.cycle? = some id)
    (hl : s'.bench.log = ⟨time, e⟩ :: s.bench.log) :
    s'.history id = s.history id ++ [⟨time, e⟩] := by
  rw [history, hl, Entry.ofCycle_cons_self he, history]

/-- A tick has ended, and the cycle goes on. -/
theorem Recorded.lap {x : Lap} (hs : s.Sound) (h : s.Recorded k laps stage)
    (hc : s'.cadence = s.cadence) (hn : s'.nextCycle = s.nextCycle) (hl : s.live = l ++ c :: r)
    (hid : c.attempt.cycle = k.id)
    (hl' : s'.live = l ++ k.idleCycle s.cadence (x :: laps) :: r)
    (hh : s'.history k.id = k.ticked s.cadence (x :: laps)) (hx : x.outcome.isSuccess = false)
    (hran : s'.Ran k (x :: laps)) (he : k.ended s.cadence (x :: laps) = s'.bench.now) :
    s'.Recorded k (x :: laps) .idle where
  named := hn ▸ h.named
  history := by rw [hh, hc, Course.entries, Course.closing, List.append_nil]
  live := by
    rw [hc, ← hid]
    exact live_of_replaced hs hl hl' hid.symm
  ran := hran
  stands := by
    refine .idle ?_ ?_
    · intro y hy
      cases hran with
      | lap _ hf =>
        rcases List.mem_cons.mp hy with rfl | hy
        · exact hx
        · exact hf y hy
    · rw [← he, hc]
      exact k.ended_le_begins _ _

/-- Unless stopped, an idle cycle is polled as its slot begins: the clock has not passed that, and
the cycle is not ready before. -/
theorem Recorded.now_eq_begins (h : s.Recorded k laps .idle)
    (hw : s.wakeTime (k.idleCycle s.cadence laps) ≤ s.bench.now)
    (hst : s.lifecycle ≠ .stopped) : s.bench.now = (k.slot s.cadence laps).begins := by
  rw [wakeTime_idle rfl hst] at hw
  cases h.stands with
  | idle _ hle => exact Nat.le_antisymm hle (k.begins_le _ hw h.ran.ended_le)

/-- An idle cycle that is polled begins its tick on time, is used up, or sees the stop. -/
theorem Turn.recorded_of_idle (hs : s.Sound) (hf : s.bench.Follows)
    (hm : s.cadence.maxTries < UInt32.size) (h : s.Recorded k laps .idle)
    (hl : s.live = l ++ k.idleCycle s.cadence laps :: r)
    (hw : s.wakeTime (k.idleCycle s.cadence laps) ≤ s.bench.now)
    (ht : Turn s l (k.idleCycle s.cadence laps) r s') :
    ∃ laps' stage', k.Next s.cadence s.lifecycle s.bench.now laps .idle laps' stage' ∧
      s'.Recorded k laps' stage' := by
  have hg := ht.grows
  have hran := h.ran.grow hg ht.cadence_eq
  have hhist := h.history_of_idle
  obtain ⟨hfail, hle⟩ : Lap.AllFail laps ∧ s.bench.now ≤ (k.slot s.cadence laps).begins := by
    cases h.stands with
    | idle hfail hle => exact ⟨hfail, hle⟩
  have hremoved : ∀ x ∈ l ++ r, x ∈ l ++ r ∨ x.attempt.cycle ≠ k.id := fun x hx => .inl hx
  have hallows := k.allows_count s.cadence hm laps
  cases ht with
  | cancelled hp hst =>
    refine ⟨laps, .cancelled s.bench.now, .cancelled hst, h.named, ?_,
      live_of_removed hs hl hremoved, hran,
      .cancelled hfail hst h.ran.ended_le hle (Nat.le_refl _)⟩
    rw [history_of_cons (s := s) rfl rfl, hhist]
    rfl
  | exhausted hp hst ha =>
    have hb := h.now_eq_begins hw hst
    have hfound := hallows.symm.trans ha
    have hticks := k.ticks_count s.cadence hm (h.ran.length_le hfound)
    refine ⟨laps, .exhausted, .exhausted hst, h.named, ?_, live_of_removed hs hl hremoved, hran,
      .exhausted hfail hfound (Nat.le_of_eq hb.symm)⟩
    rw [history_of_cons (s := s) rfl rfl, hhist]
    simp only [Course.idleCycle, hticks, Nat.add_sub_cancel, hb]
    rfl
  | @unsent deadline chain hp hst ha hfac =>
    cases hp
    have hb := h.now_eq_begins hw hst
    have hbuilt := hf.item_calls.trans hfac
    refine ⟨.unsent chain :: laps, .idle, .unsent hst, h.lap hs rfl rfl hl rfl ?_ ?_ rfl
      (.lap hran hfail (hallows.symm.trans ha) (.unsent ?_ hbuilt) (Nat.le_of_eq hb.symm))
      hb.symm⟩
    · rw [← k.idleCycle_cons, ← hb]
      rfl
    · rw [history_of_cons (s := s) rfl rfl, hhist, hb]
      rfl
    · rw [← hb]
      exact List.suffix_rfl
  | @sent deadline d hp hst ha hfac =>
    cases hp
    have hb := h.now_eq_begins hw hst
    have hbuilt := hf.item_calls.trans hfac
    refine ⟨laps, .waiting d s.bench.transport.sends.length, .sent hst, h.named, ?_,
      live_of_replaced hs hl ?_ rfl, hran,
      .waiting hfail (hallows.symm.trans ha) ⟨?_, hbuilt, hf.sends, ?_⟩ (Nat.le_of_eq hb.symm) ?_⟩
    · rw [history_of_cons (s := s) rfl rfl, hhist, hb]
      rfl
    · rw [hb]
      rfl
    · rw [← hb]
      exact List.suffix_rfl
    · rw [← hb]
      exact ⟨_, List.getElem?_concat_length, rfl, rfl⟩
    · exact Nat.le_trans (Nat.le_of_eq hb) (began_le_conclude _ _ _)
  | retried hp | delivered hp | rearmed hp | notRearmed hp => cases hp

/-- The lap of a tick whose wait is over. -/
theorem Recorded.lap_of_waiting {d : Descriptor} {send : Nat} {o : Outcome}
    (hf : s.bench.Follows) (h : s.Recorded k laps (.waiting d send))
    (hw : s.wakeTime (k.waitingCycle s.cadence laps send) ≤ s.bench.now)
    (ho : (s.ending (k.waitingCycle s.cadence laps send) (k.slot s.cadence laps).deadline
      ((k.slot s.cadence laps).begins - (k.slot s.cadence laps).deadline) send).2 = o)
    (hg : s.bench.Grows s'.bench) (hc : s'.cadence = s.cadence)
    (hn' : s'.bench.now = s.bench.now) :
    ∃ lasted, s'.Ran k (.sent d lasted o :: laps) ∧
      k.ended s.cadence (.sent d lasted o :: laps) = s.bench.now ∧
      s.history k.id ++
          [⟨s.bench.now, (k.waitingCycle s.cadence laps send).attempt.verdict o⟩] =
        k.ticked s.cadence (.sent d lasted o :: laps) := by
  rw [wakeTime_waiting rfl, s.ending_waitingCycle] at hw
  rw [s.ending_waitingCycle] at ho
  cases h.stands with
  | waiting hfail ha hsent hb hn =>
    -- the poll comes just as the wait is over
    have hnow := Nat.le_antisymm hn hw
    have hwait := waitEnds_conclude (k.slot s.cadence laps).begins s.cadence.responseTimeout
      (s.bench.transport.settlement? send)
    rw [← Bench.awaits, ← hnow, ho] at hwait
    have hlast : (k.slot s.cadence laps).begins +
        (s.bench.now - (k.slot s.cadence laps).begins) = s.bench.now := by omega
    have hprompt : ∀ delay answer, s'.bench.transport.script.item send = .after delay answer →
        (s.bench.now - (k.slot s.cadence laps).begins, o) =
          if delay ≤ s.cadence.responseTimeout then (delay, answer.outcome)
          else (s.cadence.responseTimeout, .timeout) := by
      intro delay answer hr
      rw [hg.script] at hr
      rw [← conclude_after (k.slot s.cadence laps).begins, ← hsent.settlement? hf hr,
        ← Bench.awaits, ← hnow, ho]
    refine ⟨s.bench.now - (k.slot s.cadence laps).begins, ?_, hlast, ?_⟩
    · refine .lap (h.ran.grow hg hc) hfail ?_ ?_ ?_
      · rw [hc]
        exact ha
      · rw [hc]
        exact .sent (hsent.grow hg) (hg.waitEnds hsent.lt (Nat.le_of_eq hlast) hwait) hprompt
      · rw [hc, hn']
        exact Nat.le_of_eq hlast
    · rw [h.history, Course.entries, List.append_assoc, Course.ticked, Lap.entries, hlast]
      rfl

/-- A cycle that is polled while it waits ends its tick as the wait ends. -/
theorem Turn.recorded_of_waiting {d : Descriptor} {send : Nat} (hs : s.Sound)
    (hf : s.bench.Follows) (h : s.Recorded k laps (.waiting d send))
    (hl : s.live = l ++ k.waitingCycle s.cadence laps send :: r)
    (hw : s.wakeTime (k.waitingCycle s.cadence laps send) ≤ s.bench.now)
    (ht : Turn s l (k.waitingCycle s.cadence laps send) r s') :
    ∃ laps' stage', k.Next s.cadence s.lifecycle s.bench.now laps (.waiting d send) laps' stage' ∧
      s'.Recorded k laps' stage' := by
  have hcs := hs.each (k.waitingCycle s.cadence laps send) (by simp [hl])
  have hv : ∀ o, ((k.waitingCycle s.cadence laps send).attempt.verdict o).cycle? = some k.id :=
    fun o => Attempt.cycle?_verdict _ o
  have hg := ht.grows
  cases ht with
  | cancelled hp | exhausted hp | unsent hp | sent hp => cases hp
  | retried hp ho hfail =>
    cases hp
    obtain ⟨lasted, hran, hend, hh⟩ := h.lap_of_waiting hf hw ho hg rfl rfl
    refine ⟨_, .idle, .failed hend hfail, h.lap hs rfl rfl hl rfl ?_ ?_ hfail hran hend⟩
    · rw [← k.idleCycle_cons]
      rfl
    · rw [history_of_cons (hv _) rfl, hh]
  | delivered hp ho hk =>
    cases hp
    obtain ⟨lasted, hran, hend, hh⟩ := h.lap_of_waiting hf hw ho hg rfl rfl
    have hmain : k.kind.isMain = false := hcs.isMain_of_nothing hk
    refine ⟨_, .delivered false, .delivered hend (by simp [hmain]), h.named, ?_,
      live_of_removed hs hl fun x hx => .inl hx, hran, .delivered rfl hmain⟩
    rw [history_of_cons (hv _) rfl, hh, Course.entries, Course.closing, List.append_nil]
    rfl
  | rearmed hp ho hk hst =>
    cases hp
    obtain ⟨lasted, hran, hend, hh⟩ := h.lap_of_waiting hf hw ho hg rfl rfl
    have harm := Spares.of_arm
      (s := { s.note ((k.waitingCycle s.cadence laps send).attempt.verdict .success) with
        live := l ++ r }) (.slowRefresh s.cadence) (Nat.ne_of_lt h.named)
    have hmain : k.kind.isMain = true := hcs.isMain_of_armSlowRefresh hk
    have hlog : ⟨k.ended s.cadence (.sent d lasted .success :: laps),
          .armed s.nextCycle .slowRefresh s.cadence.refreshInterval⟩ ::
        ⟨k.ended s.cadence (.sent d lasted .success :: laps),
          (k.attempt s.cadence (.sent d lasted .success :: laps)).verdict .success⟩ ::
          s.bench.log =
        ⟨s.bench.now, .armed s.nextCycle .slowRefresh s.cadence.refreshInterval⟩ ::
          ⟨s.bench.now, (k.waitingCycle s.cadence laps send).attempt.verdict .success⟩ ::
            s.bench.log := by
      rw [hend, ← k.count_attempt]
      rfl
    refine ⟨_, .delivered false, .delivered hend (by simp [hst]), Nat.lt_succ_of_lt h.named, ?_,
      live_of_removed hs hl fun y hy => ?_, hran, .rearmed rfl hmain ⟨[], hlog⟩⟩
    · rw [harm.history, history_of_cons (hv _) rfl, hh, Course.entries, Course.closing,
        List.append_nil]
      rfl
    · rcases List.mem_append.mp hy with hy | hy
      · exact .inl hy
      · rw [List.mem_singleton.mp hy]
        exact .inr (Nat.ne_of_gt h.named)
  | notRearmed hp ho hk hst =>
    cases hp
    obtain ⟨lasted, hran, hend, hh⟩ := h.lap_of_waiting hf hw ho hg rfl rfl
    have hstopped : s.lifecycle = .stopped := by
      cases hlc : s.lifecycle with
      | stopped => rfl
      | running => exact absurd hlc hst
      | created => exact absurd hlc (hs.ne_created hl)
    have hmain : k.kind.isMain = true := hcs.isMain_of_armSlowRefresh hk
    refine ⟨_, .delivered true, .delivered hend (by simp [hmain, hstopped]), h.named, ?_,
      live_of_removed hs hl fun x hx => .inl hx, hran, .notRearmed rfl hmain hstopped⟩
    rw [history_of_cons
        (s := s.note ((k.waitingCycle s.cadence laps send).attempt.verdict .success)) rfl rfl,
      history_of_cons (hv _) rfl, hh, note_bench, Bench.note_now, ← hend]
    rfl

theorem Turn.recorded (hs : s.Sound) (hf : s.bench.Follows)
    (hm : s.cadence.maxTries < UInt32.size) (h : s.Recorded k laps stage)
    (hl : s.live = l ++ c :: r) (hid : c.attempt.cycle = k.id)
    (hw : s.wakeTime c ≤ s.bench.now) (ht : Turn s l c r s') :
    ∃ laps' stage', k.Next s.cadence s.lifecycle s.bench.now laps stage laps' stage' ∧
      s'.Recorded k laps' stage' := by
  have hc : k.live s.cadence laps stage = some c := (h.live c).mp ⟨by simp [hl], hid⟩
  cases stage with
  | idle =>
    cases hc
    exact ht.recorded_of_idle hs hf hm h hl hw
  | waiting d send =>
    cases hc
    exact ht.recorded_of_waiting hs hf h hl hw
  | delivered | exhausted | cancelled => cases hc

end Polled

/-! ## A cycle that is armed -/

theorem armed_eq_idleCycle (s : Scheduler) (kind : CycleKind) :
    s.armed (.ofKind s.cadence kind) =
      Course.idleCycle ⟨s.nextCycle, kind, s.bench.now⟩ s.cadence [] := by
  cases kind <;> rfl

theorem kind_ofKind (c : Cadence) (kind : CycleKind) : (Cycle.ofKind c kind).kind = kind := by
  cases kind <;> rfl

theorem recorded_of_arm (kind : CycleKind) (hh : s.history s.nextCycle = [])
    (hn : ∀ x ∈ s.live, x.attempt.cycle < s.nextCycle) :
    (s.arm (.ofKind s.cadence kind)).Recorded ⟨s.nextCycle, kind, s.bench.now⟩ [] .idle where
  named := Nat.lt_succ_self _
  history := by
    rw [history_of_cons (s := s) rfl rfl, hh, kind_ofKind]
    rfl
  live x := by
    rw [arm_live, armed_eq_idleCycle, List.mem_append, List.mem_singleton]
    constructor
    · rintro ⟨hx | rfl, hid⟩
      · exact absurd hid (Nat.ne_of_lt (hn x hx))
      · rfl
    · intro hx
      cases hx
      exact ⟨.inr rfl, rfl⟩
  ran := .armed (Nat.le_refl _)
  stands := .idle (fun _ hx => by cases hx) (Nat.le_add_right _ _)

/-- A move arms one cycle, under the next number, or none. -/
theorem Move.arms (hs : s.Sound) (hm : Move s s') :
    s'.nextCycle = s.nextCycle ∨
      ∃ s₀ kind, s' = arm s₀ (.ofKind s₀.cadence kind) ∧ s₀.nextCycle = s.nextCycle ∧
        s₀.history s.nextCycle = s.history s.nextCycle ∧ ∀ x ∈ s₀.live, x ∈ s.live := by
  cases hm.effect with
  | started =>
    exact .inr ⟨{ s with lifecycle := .running }, .fastBringup, rfl, rfl, rfl, fun _ hx => hx⟩
  | refreshed => exact .inr ⟨s, .adHoc, rfl, rfl, rfl, fun _ hx => hx⟩
  | shutDown | noted | unchanged | released | waited => exact .inl rfl
  | @polled _ l r c hl _ ht =>
    cases ht with
    | rearmed =>
      have hne : c.attempt.cycle ≠ s.nextCycle :=
        Nat.ne_of_lt (hs.each c (by simp [hl])).named
      refine .inr ⟨{ s.note (c.attempt.verdict .success) with live := l ++ r }, .slowRefresh,
        rfl, rfl, Entry.ofCycle_cons_other (by simpa using hne) _ _, fun x hx => ?_⟩
      rw [hl]
      rcases List.mem_append.mp hx with hx | hx
      · exact List.mem_append_left _ hx
      · exact List.mem_append_right _ (List.mem_cons_of_mem _ hx)
    | _ => exact .inl rfl

theorem Move.nextCycle_le (hs : s.Sound) (hm : Move s s') : s.nextCycle ≤ s'.nextCycle := by
  rcases hm.arms hs with hn | ⟨s₀, kind, rfl, hn, _⟩
  · exact Nat.le_of_eq hn.symm
  · exact hn ▸ Nat.le_succ _

theorem Moves.nextCycle_le (h : Reachable s) (hm : s.Moves s') : s.nextCycle ≤ s'.nextCycle := by
  induction hm with
  | refl => exact Nat.le_refl _
  | tail hm hlast ih => exact Nat.le_trans ih (hlast.nextCycle_le (h.moves hm).sound)

/-! ## Every cycle -/

/-- What is told of a number: nothing, or the course of a cycle. -/
def Told (s : Scheduler) (id : Nat) : Prop :=
  (s.history id = [] ∧ s.Gone id) ∨ ∃ k laps stage, k.id = id ∧ s.Recorded k laps stage

/-- A move leaves the course of a cycle where it is, or takes it one step on. -/
theorem Move.recorded (hs : s.Sound) (hf : s.bench.Follows)
    (hmax : s.cadence.maxTries < UInt32.size) (h : s.Recorded k laps stage) (hm : Move s s') :
    s'.Recorded k laps stage ∨
      ∃ laps' stage', k.Next s.cadence s.lifecycle s.bench.now laps stage laps' stage' ∧
        s'.bench.now = s.bench.now ∧ s'.Recorded k laps' stage' := by
  rcases hm.spares (.inl h.named) with hsp | ⟨l, c, r, hl, hc, hw, ht⟩
  · exact .inl (h.spared (hm.sound hs) hm hsp (hm.nextCycle_le hs))
  · obtain ⟨laps', stage', hnext, hr⟩ := ht.recorded hs hf hmax h hl hc hw
    exact .inr ⟨laps', stage', hnext, ht.now_eq, hr⟩

theorem Move.told (hs : s.Sound) (hf : s.bench.Follows) (hmax : s.cadence.maxTries < UInt32.size)
    (h : ∀ id, s.Told id) (hm : Move s s') (id : Nat) : s'.Told id := by
  rcases h id with ⟨hh, hg⟩ | ⟨k, laps, stage, rfl, hr⟩
  · -- the move arms the first cycle of that number, or leaves the number alone
    by_cases hid : id < s.nextCycle ∨ s'.nextCycle ≤ id
    · rcases hm.spares hid with hsp | ⟨l, c, r, hl, hc, _⟩
      · exact .inl ⟨hsp.history.trans hh, hsp.gone hg⟩
      · exact absurd hc (hg c (by simp [hl]))
    · rcases hm.arms hs with hn | ⟨s₀, kind, rfl, hn, hh₀, hlive⟩
      · omega
      · obtain rfl : id = s₀.nextCycle := by
          rw [arm_nextCycle] at hid
          omega
        rw [← hn] at hh₀
        exact .inr ⟨_, _, _, rfl, recorded_of_arm kind (hh₀.trans hh)
          fun x hx => hn ▸ (hs.each x (hlive x hx)).named⟩
  · rcases hm.recorded hs hf hmax hr with hr' | ⟨laps', stage', _, _, hr'⟩
    · exact .inr ⟨k, laps, stage, rfl, hr'⟩
    · exact .inr ⟨k, laps', stage', rfl, hr'⟩

theorem Reachable.maxTries_lt (h : Reachable s) : s.cadence.maxTries < UInt32.size := by
  induction h with
  | fresh word accepted =>
    obtain rfl := Settings.of_cadence accepted
    exact word
  | move _ hm ih => exact hm.cadence_eq ▸ ih

theorem Reachable.told (h : Reachable s) (id : Nat) : s.Told id := by
  induction h generalizing id with
  | fresh => exact .inl ⟨rfl, fun _ hc => by cases hc⟩
  | move h hm ih => exact hm.told h.sound h.follows h.maxTries_lt ih id

/-! ## From a stop on -/

theorem StoppedAs.recorded {s₁ : Scheduler} (hst : s.StoppedAs s₁) (hs : s.Sound) (hm : Move s s₁)
    (h : s.Recorded k laps stage) : s₁.Recorded k laps stage :=
  h.spared (hm.sound hs) hm (hst.spares k.id) (Nat.le_of_eq hst.winds.nextCycle.symm)

/-- The stop itself leaves every course where it is. -/
theorem Halts.recorded {s₁ : Scheduler} (hs : s.Sound) (hh : s.Halts s₁)
    (h : s.Recorded k laps stage) : s₁.Recorded k laps stage := by
  have hst := hh.stoppedAs
  cases hh with
  | stop => exact hst.recorded hs .stop h
  | drop => exact hst.recorded hs .drop h
  | before => exact h

/-- By induction on the moves: a stop wakes idle cycles, so that no time passes before they have
seen it. -/
theorem Moves.cut (h : Reachable s) (hst : s.lifecycle = .stopped) (hr : s.Recorded k laps stage)
    (hm : s.Moves s') :
    ∃ laps' stage', s'.Recorded k laps' stage' ∧
      k.Cut s.cadence s.bench.now s'.bench.now laps stage laps' stage' := by
  induction hm with
  | refl => exact ⟨laps, stage, hr, .refl _ _ _ _ _⟩
  | @tail s' s'' hm hlast ih =>
    obtain ⟨laps', stage', hr', hcut⟩ := ih
    have h' := h.moves hm
    have hst' := (hm.windsDown hst).lifecycle
    rcases hlast.recorded h'.sound h'.follows h'.maxTries_lt hr' with
      hr'' | ⟨laps'', stage'', hnext, hnow, hr''⟩
    · refine ⟨laps', stage', hr'', hcut.later fun hidle => ?_⟩
      subst hidle
      have hlive := ((hr'.live _).mpr rfl).1
      refine hlast.now_eq_of_ready hlive ?_
      rw [wakeTime_of_stopped rfl hst']
      exact Nat.zero_le _
    · rw [hm.cadence_eq, hst'] at hnext
      rw [hnow]
      exact ⟨laps'', stage'', hr'', hcut.next hm.grows.now hnext⟩

end Scheduler

namespace Course

variable {k : Course} {c : Cadence} {laps : List Lap} {time id delay : Nat} {kind : CycleKind}

theorem armed_ne_verdict (a : Attempt) (o : Outcome) :
    Event.armed id kind delay ≠ a.verdict o := by
  cases o <;> simp [Attempt.verdict]

theorem armed_mem_ticked (h : ⟨time, .armed id kind delay⟩ ∈ k.ticked c laps) :
    ⟨time, .armed id kind delay⟩ =
      Entry.mk k.armed (.armed k.id k.kind (k.policy c).initialDelay) := by
  induction laps with
  | nil => exact List.mem_singleton.mp h
  | cons x earlier ih =>
    rcases List.mem_append.mp h with h | h
    · exact ih h
    · cases x <;> simp [Lap.entries, armed_ne_verdict] at h

/-- A course tells of one arming, the first thing of all. -/
theorem eq_of_armed_mem {stage : Stage}
    (h : ⟨time, .armed id kind delay⟩ ∈ k.entries c laps stage) :
    k = ⟨id, kind, time⟩ ∧ delay = (k.policy c).initialDelay := by
  rcases List.mem_append.mp h with h | h
  · have he := armed_mem_ticked h
    simp only [Entry.mk.injEq, Event.armed.injEq] at he
    obtain ⟨rfl, rfl, rfl, hd⟩ := he
    exact ⟨rfl, hd⟩
  · cases stage with
    | delivered late => cases late <;> simp [closing] at h
    | _ => simp [closing] at h

end Course

open Scheduler

/-- A cycle that the log says was armed is on its course. -/
theorem Scheduler.Reachable.recorded {s : Scheduler} (h : Reachable s) {time id delay : Nat}
    {kind : CycleKind} (armed : ⟨time, .armed id kind delay⟩ ∈ s.bench.log) :
    delay = (Cycle.ofKind s.cadence kind).policy.initialDelay ∧
      ∃ laps stage, s.Recorded ⟨id, kind, time⟩ laps stage := by
  have hmem : ⟨time, .armed id kind delay⟩ ∈ s.history id := by
    simpa [history, Entry.ofCycle, Event.cycle?] using armed
  rcases h.told id with ⟨hh, _⟩ | ⟨k, laps, stage, rfl, hr⟩
  · rw [hh] at hmem
    cases hmem
  · rw [hr.history] at hmem
    obtain ⟨hk, hd⟩ := Course.eq_of_armed_mem hmem
    rw [Course.policy, hk] at hd
    exact ⟨hd, laps, stage, hk ▸ hr⟩

/-- **Every cycle keeps its course.** From the time at which it was armed, a cycle begins, ends and
gives up its ticks when the timetable says, given the durations of the ticks before; each lasts as
long as its wait for the answer, which its reply in the script has in store; and a delivery of the
chain, unless it comes after a stop, arms the next slow refresh right then, to begin a refresh
interval later. A stop cuts the course: to the ticks that have begun no other is added, a cycle
between its ticks is cancelled as the stop comes, and one in the middle of a tick ends with it. -/
theorem cycle_keeps_course {s : Scheduler} (h : Reachable s) {time id delay : Nat}
    {kind : CycleKind} (armed : ⟨time, .armed id kind delay⟩ ∈ s.bench.log) :
    delay = (Cycle.ofKind s.cadence kind).policy.initialDelay ∧ s.bench.Follows ∧
      ∃ laps stage, s.Recorded ⟨id, kind, time⟩ laps stage ∧
        (∀ late, stage = .delivered late → kind.isMain = true →
          (late = true ∧ s.lifecycle = .stopped) ∨
          (late = false ∧ ∃ k' laps' stage', s.Recorded k' laps' stage' ∧
            k'.kind = .slowRefresh ∧
            k'.armed = Course.ended ⟨id, kind, time⟩ s.cadence laps ∧
            (k'.slot s.cadence []).begins = k'.armed + s.cadence.refreshInterval)) ∧
        ∀ s₁ s', s.Halts s₁ → s₁.Moves s' →
          ∃ laps' stage', s'.Recorded ⟨id, kind, time⟩ laps' stage' ∧
            Course.Cut ⟨id, kind, time⟩ s.cadence s.bench.now s'.bench.now laps stage
              laps' stage' := by
  obtain ⟨hd, laps, stage, hr⟩ := h.recorded armed
  refine ⟨hd, h.follows, laps, stage, hr, fun late hstage hmain => ?_, fun s₁ s' hh hm => ?_⟩
  · subst hstage
    cases hr.stands with
    | delivered _ hk => rw [hmain] at hk; cases hk
    | notRearmed _ _ hst => exact .inl ⟨rfl, hst⟩
    | @rearmed id' older _ _ hlog =>
      obtain ⟨_, laps', stage', hr'⟩ := h.recorded (hlog.subset (List.mem_cons_self ..))
      exact .inr ⟨rfl, _, laps', stage', hr', rfl, rfl, rfl⟩
  · have hst := hh.stoppedAs
    have hcut := hm.cut (h.moves hh.moves) hst.winds.lifecycle (hh.recorded h.sound hr)
    rwa [hh.moves.cadence_eq, hst.now] at hcut

/-- A reporter is stopped at 7 ms, with one tick under way and one ahead. The first ends at 50 ms,
as nothing has answered it, and the other never begins. -/
theorem busyStart_keeps_course :
    let s := Simulation.busyStart.scheduler
    let s' := s.stop.2.sleep 60
    s.lifecycle = .running ∧
      s'.history 1 =
        [⟨0, .armed 1 .fastBringup 0⟩, ⟨0, .sending 1 "a-1"⟩, ⟨50, .timedOut 1 .fastBringup 1⟩,
          ⟨50, .cancelled 1 .fastBringup⟩] ∧
      s'.history 2 = [⟨7, .armed 2 .adHoc 0⟩, ⟨7, .cancelled 2 .adHoc⟩] ∧
      ∃ laps stage laps' stage', s.Recorded ⟨1, .fastBringup, 0⟩ laps stage ∧
        s'.Recorded ⟨1, .fastBringup, 0⟩ laps' stage' ∧
        Course.Cut ⟨1, .fastBringup, 0⟩ s.cadence 7 67 laps stage laps' stage' := by
  intro s s'
  have armed : ⟨0, .armed 1 .fastBringup 0⟩ ∈ s.bench.log := by decide
  have running : s.lifecycle = .running := by decide
  have reachable : Reachable s := Simulation.reachable_sampled _ _ _
  have moves : s.stop.2.Moves s' := (sleep_spec (Move.stop.sound reachable.sound) 60).1
  obtain ⟨_, _, laps, stage, recorded, _, cut⟩ := cycle_keeps_course reachable armed
  obtain ⟨laps', stage', recorded', hcut⟩ := cut _ _ (.stop running) moves
  exact ⟨running, by decide, by decide, laps, stage, laps', stage', recorded, recorded', hcut⟩

end Heartbeat
