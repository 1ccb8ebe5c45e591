import Heartbeat.Proofs.Arrangement
import Heartbeat.Proofs.Reports

/-!
# Heartbeat.Proofs.Elapse

Time adds up: two sleeps in a row do what one does that is as long.

* `sleep_add`                   — they come to the same.
* `Passes.join`, `Passes.cut`   — so they do in whatever order simultaneous cycles are polled.
* `NothingDue`                  — how a sleep leaves a scheduler.
* `Takes.report_sleeps`         — what is reported of the two is what is reported of the one.
* `split_sleep_is_the_same`     — so no run can tell whether a sleep was made in one piece.
-/

namespace Heartbeat

namespace Scheduler

variable {s s' s'' : Scheduler} {t u i time : Nat}

theorem wait_wait (h : t ≤ u) (s : Scheduler) : (s.wait t).wait u = s.wait u := by
  simp only [wait, Bench.moveTo, Nat.max_assoc, Nat.max_eq_right h]

theorem pollAt_wait (h : t ≤ time) (s : Scheduler) (i : Nat) :
    (s.wait t).pollAt i time = s.pollAt i time :=
  congrArg (poll · i) (wait_wait h s)

/-! ## In the order of arming -/

/-- All that is ready by the target has been polled, the cycle armed first before others that are
ready with it. -/
inductive Settles (target : Nat) : Scheduler → Scheduler → Prop where
  | rest {s : Scheduler} : s.nextReady target = none → Settles target s s
  | poll {s s' : Scheduler} {i time : Nat} :
      s.nextReady target = some (i, time) → Settles target (s.pollAt i time) s' →
      Settles target s s'

theorem Settles.unique {target : Nat} (h : Settles target s s') (h' : Settles target s s'') :
    s' = s'' := by
  induction h with
  | rest hn =>
    cases h' with
    | rest => rfl
    | poll hp => rw [hn] at hp; cases hp
  | poll hn _ ih =>
    cases h' with
    | rest hp => rw [hn] at hp; cases hp
    | poll hp h' =>
      rw [hn] at hp
      cases hp
      exact ih h'

theorem settles_runFor {target : Nat} (fuel : Nat) (h : s.Sound) (hn : s.bench.now ≤ target)
    (hf : s.work target ≤ fuel) : Settles target s (runFor (fun _ => false) target fuel s) := by
  induction fuel generalizing s with
  | zero =>
    refine .rest ?_
    cases hr : s.nextReady target with
    | none => rfl
    | some x =>
      have := (pollAt_spec h hn hr).2.2
      omega
  | succ fuel ih =>
    simp only [runFor, Bool.false_eq_true, if_false]
    cases hr : s.nextReady target with
    | none => exact .rest hr
    | some x =>
      obtain ⟨i, time⟩ := x
      obtain ⟨hm, hn', hlt⟩ := pollAt_spec h hn hr
      exact .poll hr (ih (hm.sound h) hn' (by omega))

theorem nextReady_of_le (h : s.nextReady t = some (i, time)) (hle : t ≤ u) :
    s.nextReady u = some (i, time) := by
  simp only [nextReady, Option.filter_eq_some_iff, decide_eq_true_eq] at h ⊢
  exact ⟨h.1, Nat.le_trans h.2 hle⟩

theorem lt_of_nextReady (h : s.nextReady t = none) (h' : s.nextReady u = some (i, time)) :
    t < time := by
  obtain ⟨l, c, r, hl, -, rfl, -⟩ := nextReady_some h'
  exact lt_wakeTime_of_nextReady h (by simp [hl])

/-- What is polled by an earlier target and, after a wait, by a later one, is what is polled by the
later one. -/
theorem Settles.join (h : Settles t s s') (hle : t ≤ u) (h' : Settles u (s'.wait t) s'') :
    ∃ s₁, Settles u s s₁ ∧ s₁.wait u = s''.wait u := by
  induction h with
  | @rest s hn =>
    cases h' with
    | rest hn' => exact ⟨s, .rest hn', (wait_wait hle s).symm⟩
    | @poll _ _ i time hr h' =>
      have hlt := lt_of_nextReady hn hr
      rw [pollAt_wait (Nat.le_of_lt hlt)] at h'
      exact ⟨s'', .poll hr h', rfl⟩
  | poll hr _ ih =>
    obtain ⟨s₁, h₁, hs⟩ := ih h'
    exact ⟨s₁, .poll (nextReady_of_le hr hle) h₁, hs⟩

theorem settles_sleep (h : s.Sound) (ms : Nat) :
    ∃ s', Settles (s.bench.now + ms) s s' ∧ s.sleep ms = s'.wait (s.bench.now + ms) :=
  ⟨_, settles_runFor _ h (Nat.le_add_right _ _) (Nat.le_refl _), rfl⟩

theorem sleep_add (h : s.Sound) (a b : Nat) : (s.sleep a).sleep b = s.sleep (a + b) := by
  obtain ⟨hm, -, hnow⟩ := sleep_spec h a
  obtain ⟨s₁, h₁, hs₁⟩ := settles_sleep h a
  obtain ⟨s₂, h₂, hs₂⟩ := settles_sleep (hm.sound h) b
  obtain ⟨s₃, h₃, hs₃⟩ := settles_sleep h (a + b)
  rw [hnow, Nat.add_assoc] at h₂ hs₂
  rw [hs₁] at h₂
  obtain ⟨s₄, h₄, hs₄⟩ := h₁.join (Nat.add_le_add_left (Nat.le_add_right a b) _) h₂
  obtain rfl := h₃.unique h₄
  rw [hs₂, hs₃, hs₄]

/-! ## In any order -/

theorem Advances.of_le (h : Advances t s s') (hle : t ≤ u) : Advances u s s' := by
  cases h with
  | poll hl hw hn => exact .poll hl (Nat.le_trans hw hle) hn

/-- A wait in which nothing gets ready does not change what can be polled next. -/
theorem advances_wait_iff (hrest : ∀ c ∈ s.live, t < s.wakeTime c) :
    Advances u (s.wait t) s' ↔ Advances u s s' := by
  have same : ∀ {l r : List LiveCycle} {c : LiveCycle}, s.live = l ++ c :: r →
      (s.wait t).pollAt l.length (s.wakeTime c) = s.pollAt l.length (s.wakeTime c) := fun hl =>
    pollAt_wait (Nat.le_of_lt (hrest _ (by simp [hl]))) s _
  constructor
  · rintro ⟨hl, hw, hn⟩
    have hadvances : Advances u s _ := .poll hl hw fun x hx => by
      have hlt := hrest x hx
      have hle : s.wakeTime _ ≤ max (max s.bench.now t) (s.wakeTime x) := hn x hx
      omega
    rw [← same hl] at hadvances
    exact hadvances
  · rintro ⟨hl, hw, hn⟩
    have hadvances : Advances u (s.wait t) _ := .poll hl hw fun x hx => by
      have hle := hn x hx
      change s.wakeTime _ ≤ max (max s.bench.now t) (s.wakeTime x)
      omega
    rw [← same hl]
    exact hadvances

theorem Passes.join (h : Passes t s s') (hle : t ≤ u) (h' : Passes u (s'.wait t) s'') :
    ∃ s₁, Passes u s s₁ ∧ s₁.wait u = s''.wait u := by
  induction h with
  | @rest s hrest =>
    cases h' with
    | rest hrest' => exact ⟨s, .rest hrest', (wait_wait hle s).symm⟩
    | step ha h' => exact ⟨s'', .step ((advances_wait_iff hrest).mp ha) h', rfl⟩
  | step ha _ ih =>
    obtain ⟨s₁, h₁, hs⟩ := ih h'
    exact ⟨s₁, .step (ha.of_le hle) h₁, hs⟩

/-- Polls up to a target can be cut in two at an earlier one. -/
theorem Passes.cut (h : Passes u s s'') (hle : t ≤ u) (hn : s.bench.now ≤ t) :
    ∃ s' s₁, Passes t s s' ∧ Passes u (s'.wait t) s₁ ∧ s₁.wait u = s''.wait u := by
  induction h with
  | @rest s hrest =>
    have hrest' : ∀ c ∈ s.live, t < s.wakeTime c := fun c hc => Nat.lt_of_le_of_lt hle (hrest c hc)
    exact ⟨s, s.wait t, .rest hrest', .rest hrest, wait_wait hle s⟩
  | @step s _ s'' ha hp ih =>
    cases ha with
    | @poll l r c hl hw hfirst =>
      by_cases hc : s.wakeTime c ≤ t
      · have ha' : Advances t s _ := .poll hl hc hfirst
        obtain ⟨s', s₁, h', h₁, hs⟩ := ih (ha'.now_le hn)
        exact ⟨s', s₁, .step ha' h', h₁, hs⟩
      · -- the first poll is made after the cut, and so nothing is ready by then
        have hrest : ∀ x ∈ s.live, t < s.wakeTime x := by
          intro x hx
          have hle := hfirst x hx
          omega
        have ha' := (advances_wait_iff hrest).mpr (.poll hl hw hfirst)
        exact ⟨s, s'', .rest hrest, .step ha' hp, rfl⟩

/-! ## What is told meanwhile -/

theorem Moves.logs (hm : s.Moves s') :
    ∃ new, s'.bench.log = new ++ s.bench.log ∧ ∀ e ∈ new, s.bench.now ≤ e.time := by
  induction hm with
  | refl => exact ⟨[], rfl, by simp⟩
  | tail hm hlast ih =>
    obtain ⟨new, hl, hn⟩ := ih
    obtain ⟨last, hl', hn'⟩ := hlast.logs
    refine ⟨last ++ new, by rw [hl', hl, List.append_assoc], fun e he => ?_⟩
    rcases List.mem_append.mp he with he | he
    · rw [hn' e he]
      exact hm.grows.now
    · exact hn e he

/-- What is told once nothing is ready is told later. -/
theorem Passes.logs (h : Passes u s s') (hrest : s.AtRest) :
    ∃ new, s'.bench.log = new ++ s.bench.log ∧ ∀ e ∈ new, s.bench.now < e.time := by
  cases h with
  | rest => exact ⟨[], rfl, by simp⟩
  | step ha hp =>
    cases ha with
    | @poll l r c hl =>
      have hpoll : Move (s.wait (s.wakeTime c)) ((s.wait (s.wakeTime c)).poll l.length) :=
        .poll hl (Nat.le_max_right _ _)
      obtain ⟨new, hlog, hn⟩ := Moves.logs ((Moves.single hpoll).trans hp.moves)
      refine ⟨new, hlog, fun e he => ?_⟩
      have hlt := hrest c (by simp [hl])
      exact Nat.lt_of_lt_of_le hlt (Nat.le_trans (Nat.le_max_right _ _) (hn e he))

/-- Nothing is left due: no idle cycle has a deadline that is over, and no wait has ended. -/
structure NothingDue (s : Scheduler) : Prop where
  idle : ∀ c ∈ s.live, ∀ deadline, c.phase = .idle deadline → s.bench.now < deadline
  waiting : ∀ c ∈ s.live, ∀ deadline late send, c.phase = .waiting deadline late send →
    s.bench.now < (s.ending c deadline late send).1

theorem AtRest.nothingDue (h : s.AtRest) : s.NothingDue where
  idle c hc deadline hp := by
    have hlt := h c hc
    simp only [wakeTime, hp] at hlt
    split at hlt
    · cases hlt
    · exact hlt
  waiting c hc deadline late send hp := wakeTime_waiting hp ▸ h c hc

end Scheduler

/-- Entries all of which are told before others are arranged before them. -/
theorem Entry.arrange_append {xs ys : List Entry} (hx : xs.Pairwise fun a b => a.time ≤ b.time)
    (hy : ys.Pairwise fun a b => a.time ≤ b.time) (h : ∀ x ∈ xs, ∀ y ∈ ys, x.time < y.time) :
    arrange (xs ++ ys) = arrange xs ++ arrange ys := by
  have hall : (xs ++ ys).Pairwise fun a b => a.time ≤ b.time :=
    List.pairwise_append.mpr ⟨hx, hy, fun x hx y hy => Nat.le_of_lt (h x hx y hy)⟩
  have hsame : SameOfEach (arrange (xs ++ ys)) (arrange xs ++ arrange ys) := by
    intro k
    rw [ofClass_arrange hall, ofClass_append, ofClass_append, ofClass_arrange hx,
      ofClass_arrange hy]
  have hordered : ∀ zs, (arrange zs).Pairwise fun a b => a.precedes b = true :=
    List.pairwise_mergeSort precedes_trans precedes_total
  refine hsame.eq_of_pairwise (hordered _) (List.pairwise_append.mpr ⟨hordered _, hordered _, ?_⟩)
  intro x hx y hy
  rw [arrange, List.mem_mergeSort] at hx hy
  exact (precedes_iff x y).mpr (.inl (h x hx y hy))

/-- Two reports as one, that tells what the first one tells and then what the second one does. -/
def Report.followedBy (first second : Report) : Report :=
  { second with
    sends := first.sends ++ second.sends
    events := first.events ++ second.events }

namespace Simulation

open Scheduler

variable {m m' m'' : Simulation} {returned : Option Bool} {a b ms : Nat}

theorem takes_sleep : Takes m (.sleep ms) returned m' ↔ returned = none ∧ ∃ s,
    Passes (m.scheduler.bench.now + ms) m.scheduler s ∧
      m' = { m with scheduler := s.wait (m.scheduler.bench.now + ms) } := by
  constructor
  · rintro ⟨⟩
    exact ⟨rfl, _, ‹_›, rfl⟩
  · rintro ⟨rfl, s, hp, rfl⟩
    exact .sleep hp

theorem Takes.now_sleep (h : Takes m (.sleep ms) returned m') :
    m'.scheduler.bench.now = m.scheduler.bench.now + ms := by
  obtain ⟨-, s, hp, rfl⟩ := takes_sleep.mp h
  exact Nat.max_eq_right (hp.now_le (Nat.le_add_right _ _))

theorem Takes.atRest (h : Takes m (.sleep ms) returned m') : m'.scheduler.AtRest := by
  intro c hc
  rw [h.now_sleep]
  obtain ⟨-, s, hp, rfl⟩ := takes_sleep.mp h
  exact hp.atRest c hc

theorem Takes.join (h : Takes m (.sleep a) none m') (h' : Takes m' (.sleep b) none m'') :
    Takes m (.sleep (a + b)) none m'' := by
  have hnow := h.now_sleep
  obtain ⟨-, s, hp, rfl⟩ := takes_sleep.mp h
  obtain ⟨-, s', hp', rfl⟩ := takes_sleep.mp h'
  rw [hnow, Nat.add_assoc] at hp' ⊢
  obtain ⟨s₁, hp₁, hs⟩ := hp.join (Nat.add_le_add_left (Nat.le_add_right a b) _) hp'
  exact takes_sleep.mpr ⟨rfl, s₁, hp₁, by rw [hs]⟩

theorem Takes.cut (h : Takes m (.sleep (a + b)) none m'') :
    ∃ m', Takes m (.sleep a) none m' ∧ Takes m' (.sleep b) none m'' := by
  obtain ⟨-, s, hp, rfl⟩ := takes_sleep.mp h
  obtain ⟨s', s₁, hp', hp₁, hs⟩ := hp.cut (t := m.scheduler.bench.now + a)
    (Nat.add_le_add_left (Nat.le_add_right a b) _) (Nat.le_add_right _ _)
  have ht : Takes m (.sleep a) none _ := .sleep hp'
  refine ⟨_, ht, takes_sleep.mpr ⟨rfl, s₁, ?_, ?_⟩⟩
  · rw [ht.now_sleep, Nat.add_assoc]
    exact hp₁
  · rw [ht.now_sleep, Nat.add_assoc, ← hs]

/-- What is told once nothing is ready is reported after what was told before. -/
theorem report_followedBy (h : Reachable m.scheduler)
    (hm : m.scheduler.Moves m'.scheduler) (hm' : m'.scheduler.Moves m''.scheduler)
    {late : List Entry} (hlate : m''.scheduler.bench.log = late ++ m'.scheduler.bench.log)
    (hlater : ∀ e ∈ late, m'.scheduler.bench.now < e.time) :
    m.report m'' none = (m.report m' none).followedBy (m'.report m'' none) := by
  obtain ⟨new, hnew, -⟩ := Moves.logs hm
  obtain ⟨sent, hsent⟩ := hm.times
  obtain ⟨sent', hsent'⟩ := hm'.times
  have hboth : m''.scheduler.bench.log = (late ++ new) ++ m.scheduler.bench.log := by
    rw [hlate, hnew, List.append_assoc]
  have hordered := ((h.moves hm).moves hm').log_in_order
  rw [hboth, List.pairwise_append, List.pairwise_append] at hordered
  obtain ⟨⟨hlateordered, hnewordered, -⟩, -⟩ := hordered
  have hpast : ∀ e ∈ new, e.time ≤ m'.scheduler.bench.now := fun e he =>
    (h.moves hm).past e (by simp [hnew, he])
  have hevents : (m.report m'' none).events =
      (m.report m' none).events ++ (m'.report m'' none).events := by
    rw [report_events hboth, report_events hnew, report_events hlate, List.reverse_append]
    refine Entry.arrange_append (List.pairwise_reverse.mpr hnewordered)
      (List.pairwise_reverse.mpr hlateordered) fun x hx y hy => ?_
    exact Nat.lt_of_le_of_lt (hpast x (List.mem_reverse.mp hx)) (hlater y (List.mem_reverse.mp hy))
  have hsends : (m.report m'' none).sends =
      (m.report m' none).sends ++ (m'.report m'' none).sends := by
    rw [report_sends hsent, report_sends hsent',
      report_sends (by rw [hsent', hsent, List.append_assoc])]
  rw [Report.followedBy, ← hsends, ← hevents]
  rfl

theorem Takes.report_sleeps (h : Reachable m.scheduler) (ht : Takes m (.sleep a) none m')
    (ht' : Takes m' (.sleep b) none m'') :
    m.report m'' none = (m.report m' none).followedBy (m'.report m'' none) := by
  have hm := ht.moves h.sound
  have hm' := ht'.moves (h.moves hm).sound
  have hrest := ht.atRest
  obtain ⟨-, s, hp, rfl⟩ := takes_sleep.mp ht'
  obtain ⟨late, hlate, hlater⟩ := hp.logs hrest
  exact report_followedBy h hm hm' hlate hlater

theorem apply_sleep_add (h : m.scheduler.Sound) (a b : Nat) :
    ((m.apply (.sleep a)).2.apply (.sleep b)).2 = (m.apply (.sleep (a + b))).2 := by
  simp only [apply, sleep_add h]

theorem run_sleep_add (h : Reachable m.scheduler) (a b : Nat) (later : List Step) :
    ∃ first second after last, m.run (.sleep a :: .sleep b :: later) =
        (first :: second :: after, last) ∧
      m.run (.sleep (a + b) :: later) = (first.followedBy second :: after, last) := by
  let n := (m.apply (.sleep a)).2
  let n' := (n.apply (.sleep b)).2
  have hfirst : Takes m (.sleep a) none n := takes_apply h.sound _
  have hsecond : Takes n (.sleep b) none n' :=
    takes_apply ((hfirst.moves h.sound).sound h.sound) _
  refine ⟨m.report n none, n.report n' none, (n'.run later).1, (n'.run later).2, rfl, ?_⟩
  rw [← hfirst.report_sleeps h hsecond]
  simp only [run, step, ← apply_sleep_add h.sound]
  rfl

end Simulation

open Scheduler Simulation

/-- **Splitting a sleep changes nothing.** Two sleeps in a row are reported as the one sleep that is
as long, cut in two, and all other steps as they are, and it all comes to the same: when
simultaneous cycles are polled in the order of arming, and also in any other order, since for every
order of the run with one sleep there is one of the run with two, and the other way round. However
they are polled, a sleep leaves nothing due. -/
theorem split_sleep_is_the_same {m : Simulation} (h : Reachable m.scheduler)
    (earlier later : List Step) (a b : Nat) :
    (∃ before first second after last, before.length = earlier.length ∧
      m.run (earlier ++ .sleep a :: .sleep b :: later) =
        (before ++ first :: second :: after, last) ∧
      m.run (earlier ++ .sleep (a + b) :: later) =
        (before ++ first.followedBy second :: after, last)) ∧
    (∀ reports last, Runs m (earlier ++ .sleep (a + b) :: later) reports last ↔
      ∃ before first second after, before.length = earlier.length ∧
        Runs m (earlier ++ .sleep a :: .sleep b :: later) (before ++ first :: second :: after)
          last ∧
        reports = before ++ first.followedBy second :: after) ∧
    ∀ ms reports last, Runs m (earlier ++ [.sleep ms]) reports last →
      last.scheduler.NothingDue := by
  refine ⟨?_, fun reports last => ⟨fun hr => ?_, ?_⟩, fun ms reports last hr => ?_⟩
  · obtain ⟨first, second, after, last, htwo, hone⟩ :=
      run_sleep_add (reachable_run h earlier) a b later
    refine ⟨(m.run earlier).1, first, second, after, last, length_run m earlier, ?_, ?_⟩
    · rw [run_append, htwo]
    · rw [run_append, hone]
  · obtain ⟨before, rest, n, hbefore, hrest, rfl⟩ := runs_append.mp hr
    have hn : Reachable n.scheduler := h.moves (hbefore.moves h.sound)
    cases hrest with
    | cons ht hafter =>
      obtain rfl := (takes_sleep.mp ht).1
      obtain ⟨n', hfirst, hsecond⟩ := ht.cut
      refine ⟨before, _, _, _, hbefore.length, ?_, by rw [hfirst.report_sleeps hn hsecond]⟩
      exact runs_append.mpr ⟨_, _, n, hbefore, .cons hfirst (.cons hsecond hafter), rfl⟩
  · rintro ⟨before, first, second, after, hlen, hr, rfl⟩
    obtain ⟨before', rest, n, hbefore, hrest, hreports⟩ := runs_append.mp hr
    have hn : Reachable n.scheduler := h.moves (hbefore.moves h.sound)
    obtain ⟨rfl, rfl⟩ := List.append_inj hreports (hlen.trans hbefore.length.symm)
    cases hrest with
    | cons hfirst hrest =>
      cases hrest with
      | cons hsecond hafter =>
        obtain rfl := (takes_sleep.mp hfirst).1
        obtain rfl := (takes_sleep.mp hsecond).1
        rw [← hfirst.report_sleeps hn hsecond]
        exact runs_append.mpr ⟨_, _, n, hbefore, .cons (hfirst.join hsecond) hafter, rfl⟩
  · obtain ⟨before, rest, n, -, hrest, -⟩ := runs_append.mp hr
    cases hrest with
    | cons ht hnil =>
      cases hnil
      exact ht.atRest.nothingDue

namespace Simulation

/-- A sleep in which a wait times out and another request is answered, cut where the wait ends. -/
theorem slow_sleep_is_split :
    ((sample [.hold 0] .ack).run [.start, .sleep 50, .sleep 100]).1.map (·.sends) =
        [[], [0, 50], [150]] ∧
      ((sample [.hold 0] .ack).run [.start, .sleep 150]).1.map (·.sends) = [[], [0, 50, 150]] ∧
      ((sample [.hold 0] .ack).run [.start, .sleep 50, .sleep 100]).2 =
        ((sample [.hold 0] .ack).run [.start, .sleep 150]).2 := by
  have h : Reachable (sample [.hold 0] .ack).scheduler := reachable_sampled _ _ []
  obtain ⟨_, _, _, _, _, -, htwo, hone⟩ := (split_sleep_is_the_same h [.start] [] 50 100).1
  have hend := (congrArg Prod.snd htwo).trans (congrArg Prod.snd hone).symm
  exact ⟨by decide, by decide, hend⟩

end Simulation
end Heartbeat
