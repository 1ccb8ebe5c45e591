import Heartbeat.Proofs.Scripts
import Heartbeat.Proofs.Timetable

/-!
# Heartbeat.Proofs.Course

The course of one cycle, as the reference timetable has it, and what it means that a scheduler has
gone that way.

* `Lap`      — what one tick came to; laps are listed with the last one first.
* `Stage`    — where the cycle stands after its laps.
* `Course`   — a cycle that was armed; its `slot`, `entries` and `live` follow from its laps.
* `Next`     — one step of a course, and `Cut`, what is left of one from a stop on.
* `Recorded` — the log and the live cycles are, for this cycle, what its course says.
-/

namespace Heartbeat

/-- What one tick came to. -/
inductive Lap where
  /-- There was no descriptor to send. -/
  | unsent (chain : ErrorChain)
  | sent (d : Descriptor) (lasted : Nat) (o : Outcome)

namespace Lap

def lasted : Lap → Nat
  | unsent _ => 0
  | sent _ lasted _ => lasted

def outcome : Lap → Outcome
  | unsent chain => .fail .descriptor chain.message
  | sent _ _ o => o

/-- What the log says of a tick that begins at a time. -/
def entries (a : Attempt) (begins : Nat) : Lap → List Entry
  | unsent chain => [⟨begins, a.verdict (.fail .descriptor chain.message)⟩]
  | sent d lasted o => [⟨begins, .sending a.cycle d.agentId⟩, ⟨begins + lasted, a.verdict o⟩]

/-- No tick has delivered. -/
def AllFail (laps : List Lap) : Prop := ∀ x ∈ laps, x.outcome.isSuccess = false

end Lap

inductive Stage where
  | idle
  | waiting (d : Descriptor) (send : Nat)
  /-- Ended with a delivery, of the main chain and after the stop if it is late. -/
  | delivered (late : Bool)
  | exhausted
  | cancelled (time : Nat)

structure Course where
  id : Nat
  kind : CycleKind
  /-- When the cycle was armed. -/
  armed : Nat

namespace Course

section Definitions

variable (k : Course) (c : Cadence)

def policy : AttemptPolicy := (Cycle.ofKind c k.kind).policy

/-- The slot of the tick that follows. -/
def slot (laps : List Lap) : Slot :=
  Heartbeat.slot (k.armed + (k.policy c).initialDelay) (k.policy c).period
    (laps.map Lap.lasted)

def attempt (laps : List Lap) : Attempt where
  cycle := k.id
  kind := k.kind
  maxTries := (k.policy c).maxTries
  timeout := c.responseTimeout
  ticks := min laps.length Attempt.greatestTicks

/-- When the last tick ended; before the first one, when the cycle was armed. -/
def ended : List Lap → Nat
  | [] => k.armed
  | lap :: earlier => (k.slot c earlier).begins + lap.lasted

/-- What the log says of the ticks so far. -/
def ticked : List Lap → List Entry
  | [] => [⟨k.armed, .armed k.id k.kind (k.policy c).initialDelay⟩]
  | lap :: earlier =>
    ticked earlier ++ lap.entries (k.attempt c earlier).count (k.slot c earlier).begins

/-- What the log says beyond that. -/
def closing (laps : List Lap) : Stage → List Entry
  | .idle | .delivered false => []
  | .waiting d _ => [⟨(k.slot c laps).begins, .sending k.id d.agentId⟩]
  | .delivered true => [⟨k.ended c laps, .notRearmed k.id⟩]
  | .exhausted => [⟨(k.slot c laps).begins, .exhausted k.id k.kind laps.length⟩]
  | .cancelled time => [⟨time, .cancelled k.id k.kind⟩]

def entries (laps : List Lap) (stage : Stage) : List Entry :=
  k.ticked c laps ++ k.closing c laps stage

def idleCycle (laps : List Lap) : LiveCycle where
  attempt := k.attempt c laps
  period := (k.policy c).period
  period_pos := (k.policy c).period_pos
  onSuccess := (Cycle.ofKind c k.kind).onSuccess
  phase := .idle (k.slot c laps).deadline

def waitingCycle (laps : List Lap) (send : Nat) : LiveCycle :=
  { k.idleCycle c laps with
    attempt := (k.attempt c laps).count
    phase := .waiting (k.slot c laps).deadline
      ((k.slot c laps).begins - (k.slot c laps).deadline) send }

/-- The live cycle, as long as there is one. -/
def live (laps : List Lap) : Stage → Option LiveCycle
  | .idle => some (k.idleCycle c laps)
  | .waiting _ send => some (k.waitingCycle c laps send)
  | .delivered _ | .exhausted | .cancelled _ => none

/-- One step of a course, at a time and in a state of the scheduler. -/
inductive Next (state : Lifecycle) (time : Nat) :
    List Lap → Stage → List Lap → Stage → Prop where
  | cancelled {laps : List Lap} : state = .stopped →
      Next state time laps .idle laps (.cancelled time)
  | exhausted {laps : List Lap} : state ≠ .stopped → Next state time laps .idle laps .exhausted
  | unsent {laps : List Lap} {chain : ErrorChain} : state ≠ .stopped →
      Next state time laps .idle (.unsent chain :: laps) .idle
  | sent {laps : List Lap} {d : Descriptor} {send : Nat} : state ≠ .stopped →
      Next state time laps .idle laps (.waiting d send)
  | failed {laps : List Lap} {d : Descriptor} {send lasted : Nat} {o : Outcome} :
      k.ended c (.sent d lasted o :: laps) = time → o.isSuccess = false →
      Next state time laps (.waiting d send) (.sent d lasted o :: laps) .idle
  | delivered {laps : List Lap} {d : Descriptor} {send lasted : Nat} {late : Bool} :
      k.ended c (.sent d lasted .success :: laps) = time →
      (late = true ↔ k.kind.isMain = true ∧ state = .stopped) →
      Next state time laps (.waiting d send) (.sent d lasted .success :: laps) (.delivered late)

/-- What a stop leaves of a course: no tick begins any more. A cycle between its ticks is cancelled
as the stop comes; one in the middle of a tick ends with that tick, delivered or cancelled. -/
inductive Cut (stop now : Nat) (laps : List Lap) : Stage → List Lap → Stage → Prop where
  /-- No time has passed, and the stop has not been seen. -/
  | unseen : now = stop → Cut stop now laps .idle laps .idle
  | cancelled : Cut stop now laps .idle laps (.cancelled stop)
  | underWay {d : Descriptor} {send : Nat} :
      Cut stop now laps (.waiting d send) laps (.waiting d send)
  /-- The tick has just failed, and the stop has not been seen. -/
  | failed {d : Descriptor} {send lasted : Nat} {o : Outcome} :
      o.isSuccess = false → stop ≤ now → k.ended c (.sent d lasted o :: laps) = now →
      Cut stop now laps (.waiting d send) (.sent d lasted o :: laps) .idle
  | givenUp {d : Descriptor} {send lasted time : Nat} {o : Outcome} :
      o.isSuccess = false → stop ≤ time → k.ended c (.sent d lasted o :: laps) = time →
      Cut stop now laps (.waiting d send) (.sent d lasted o :: laps) (.cancelled time)
  | delivered {d : Descriptor} {send lasted : Nat} :
      stop ≤ k.ended c (.sent d lasted .success :: laps) →
      Cut stop now laps (.waiting d send) (.sent d lasted .success :: laps)
        (.delivered k.kind.isMain)
  /-- The cycle had ended before. -/
  | ended {stage : Stage} : k.live c laps stage = none → Cut stop now laps stage laps stage

end Definitions
end Course

/-! ## What has been -/

/-- A send that the log tells of right after `older`: as many descriptors and sends came before it
as `older` counts. -/
structure Bench.Dispatch (b : Bench) (cycle time send : Nat) (d : Descriptor)
    (older : List Entry) : Prop where
  noted : ⟨time, .sending cycle d.agentId⟩ :: older <:+ b.log
  built : b.factory.item (Entry.calls older) = .ok d
  number : send = Entry.sendings older
  sent : ∃ x, b.transport.sends[send]? = some x ∧ x.time = time ∧ x.descriptor = d

/-- A tick of an attempt that began at a time has come to this. -/
inductive Lap.Happened (b : Bench) (a : Attempt) (begins : Nat) : Lap → Prop where
  | unsent {chain : ErrorChain} {older : List Entry} :
      ⟨begins, a.verdict (.fail .descriptor chain.message)⟩ :: older <:+ b.log →
      b.factory.item (Entry.calls older) = .error chain → Happened b a begins (.unsent chain)
  | sent {d : Descriptor} {send lasted : Nat} {o : Outcome} {older : List Entry} :
      b.Dispatch a.cycle begins send d older →
      WaitEnds begins a.timeout (b.transport.settlement? send) lasted o →
      (∀ delay answer, b.transport.script.item send = .after delay answer →
        (lasted, o) =
          if delay ≤ a.timeout then (delay, answer.outcome) else (a.timeout, .timeout)) →
      Happened b a begins (.sent d lasted o)

namespace Scheduler

/-- The laps of a cycle have happened, each in its slot, each after failures and each allowed. -/
inductive Ran (s : Scheduler) (k : Course) : List Lap → Prop where
  | armed : k.armed ≤ s.bench.now → Ran s k []
  | lap {x : Lap} {earlier : List Lap} :
      Ran s k earlier → Lap.AllFail earlier →
      (k.policy s.cadence).maxTries.allows (earlier.length + 1) = true →
      x.Happened s.bench (k.attempt s.cadence earlier).count (k.slot s.cadence earlier).begins →
      k.ended s.cadence (x :: earlier) ≤ s.bench.now → Ran s k (x :: earlier)

inductive Stands (s : Scheduler) (k : Course) (laps : List Lap) : Stage → Prop where
  | idle : Lap.AllFail laps → s.bench.now ≤ (k.slot s.cadence laps).begins →
      Stands s k laps .idle
  | waiting {d : Descriptor} {send : Nat} {older : List Entry} :
      Lap.AllFail laps → (k.policy s.cadence).maxTries.allows (laps.length + 1) = true →
      s.bench.Dispatch k.id (k.slot s.cadence laps).begins send d older →
      (k.slot s.cadence laps).begins ≤ s.bench.now →
      s.bench.now ≤
        (s.bench.awaits send (k.slot s.cadence laps).begins s.cadence.responseTimeout).1 →
      Stands s k laps (.waiting d send)
  | delivered : laps.head?.map Lap.outcome = some .success → k.kind.isMain = false →
      Stands s k laps (.delivered false)
  /-- The next slow refresh was armed right then. -/
  | rearmed {id : Nat} {older : List Entry} :
      laps.head?.map Lap.outcome = some .success → k.kind.isMain = true →
      ⟨k.ended s.cadence laps, .armed id .slowRefresh s.cadence.refreshInterval⟩ ::
        ⟨k.ended s.cadence laps, (k.attempt s.cadence laps).verdict .success⟩ :: older <:+
          s.bench.log →
      Stands s k laps (.delivered false)
  | notRearmed : laps.head?.map Lap.outcome = some .success → k.kind.isMain = true →
      s.lifecycle = .stopped → Stands s k laps (.delivered true)
  | exhausted : Lap.AllFail laps →
      (k.policy s.cadence).maxTries.allows (laps.length + 1) = false →
      (k.slot s.cadence laps).begins ≤ s.bench.now → Stands s k laps .exhausted
  | cancelled {time : Nat} : Lap.AllFail laps → s.lifecycle = .stopped →
      k.ended s.cadence laps ≤ time → time ≤ (k.slot s.cadence laps).begins →
      time ≤ s.bench.now → Stands s k laps (.cancelled time)

/-- What the log and the live cycles tell of a cycle is the course it has taken. -/
structure Recorded (s : Scheduler) (k : Course) (laps : List Lap) (stage : Stage) : Prop where
  named : k.id < s.nextCycle
  history : s.history k.id = k.entries s.cadence laps stage
  live : ∀ x : LiveCycle,
    x ∈ s.live ∧ x.attempt.cycle = k.id ↔ k.live s.cadence laps stage = some x
  ran : s.Ran k laps
  stands : s.Stands k laps stage

end Scheduler

/-! ## Laws of a course -/

namespace Course

variable (k : Course) (c : Cadence)

theorem count_attempt (x : Lap) (laps : List Lap) :
    (k.attempt c laps).count = k.attempt c (x :: laps) := by
  simp only [Attempt.count, attempt, List.length_cons, Attempt.mk.injEq, true_and]
  omega

theorem deadline_le_begins (laps : List Lap) :
    (k.slot c laps).deadline ≤ (k.slot c laps).begins :=
  Heartbeat.deadline_le_begins _ _ _

theorem deadline_slot_cons (x : Lap) (laps : List Lap) :
    (k.slot c (x :: laps)).deadline =
      nextDeadline (k.slot c laps).deadline
        ((k.slot c laps).begins - (k.slot c laps).deadline) (k.policy c).period :=
  deadline_cons _ _ _ _

theorem idleCycle_cons (x : Lap) (laps : List Lap) :
    { k.idleCycle c laps with
      attempt := (k.attempt c laps).count
      phase := .idle (nextDeadline (k.slot c laps).deadline
        ((k.slot c laps).begins - (k.slot c laps).deadline) (k.policy c).period) } =
      k.idleCycle c (x :: laps) := by
  rw [k.count_attempt c x, ← k.deadline_slot_cons c x]
  rfl

/-- A tick begins as soon as it is due and the one before it has ended. -/
theorem begins_le {laps : List Lap} {time : Nat} (hd : (k.slot c laps).deadline ≤ time)
    (he : k.ended c laps ≤ time) : (k.slot c laps).begins ≤ time := by
  cases laps with
  | nil => exact hd
  | cons x earlier => exact Nat.max_le.mpr ⟨hd, he⟩

theorem ended_le_begins (laps : List Lap) : k.ended c laps ≤ (k.slot c laps).begins := by
  cases laps with
  | nil => exact Nat.le_add_right _ _
  | cons x earlier => exact ends_le_begins _ _ _ _

/-- The count of ticks stops far beyond every limit. -/
theorem allows_count (hc : c.maxTries < UInt32.size) (laps : List Lap) :
    (k.policy c).maxTries.allows (k.attempt c laps).count.ticks =
      (k.policy c).maxTries.allows (laps.length + 1) := by
  have hg : UInt32.size < Attempt.greatestTicks := by decide
  have hiff : min (min laps.length Attempt.greatestTicks + 1) Attempt.greatestTicks ≤ c.maxTries ↔
      laps.length + 1 ≤ c.maxTries := by omega
  cases hk : k.kind with
  | fastBringup => simp only [policy, hk, Cycle.ofKind, Cycle.fastBringup, MaxTries.allows]
  | slowRefresh =>
    simp only [policy, hk, Cycle.ofKind, Cycle.slowRefresh, MaxTries.allows, attempt,
      Attempt.count]
    exact decide_eq_decide.mpr hiff
  | adHoc =>
    simp only [policy, hk, Cycle.ofKind, Cycle.adHoc, MaxTries.allows, attempt, Attempt.count]
    exact decide_eq_decide.mpr hiff

theorem ticks_count (hc : c.maxTries < UInt32.size) {laps : List Lap}
    (hl : laps.length ≤ c.maxTries) : (k.attempt c laps).count.ticks = laps.length + 1 := by
  have hg : UInt32.size < Attempt.greatestTicks := by decide
  simp only [Attempt.count, attempt]
  omega

theorem le_maxTries_of_allows {n m : Nat} (h : (k.policy c).maxTries.allows n = true)
    (hm : (k.policy c).maxTries.allows m = false) : n ≤ c.maxTries := by
  cases hk : k.kind with
  | fastBringup => simp [policy, hk, Cycle.ofKind, Cycle.fastBringup, MaxTries.allows] at hm
  | slowRefresh => simpa [policy, hk, Cycle.ofKind, Cycle.slowRefresh, MaxTries.allows] using h
  | adHoc => simpa [policy, hk, Cycle.ofKind, Cycle.adHoc, MaxTries.allows] using h

end Course

/-! ## A course that is cut -/

namespace Course

variable {k : Course} {c : Cadence} {stop now now' : Nat} {laps laps' laps'' : List Lap}
  {stage stage' stage'' : Stage}

theorem Cut.refl (k : Course) (c : Cadence) (stop : Nat) (laps : List Lap) (stage : Stage) :
    k.Cut c stop stop laps stage laps stage := by
  cases stage with
  | idle => exact .unseen rfl
  | waiting d send => exact .underWay
  | delivered | exhausted | cancelled => exact .ended rfl

/-- Time passes only while the cycle is not idle. -/
theorem Cut.later (h : k.Cut c stop now laps stage laps' stage')
    (hn : stage' = .idle → now' = now) : k.Cut c stop now' laps stage laps' stage' := by
  cases h with
  | unseen hstop => exact .unseen ((hn rfl).trans hstop)
  | cancelled => exact .cancelled
  | underWay => exact .underWay
  | failed ho hle hend =>
    obtain rfl := hn rfl
    exact .failed ho hle hend
  | givenUp ho hle hend => exact .givenUp ho hle hend
  | delivered hle => exact .delivered hle
  | ended hnone => exact .ended hnone

/-- A step from a stop on takes a tick to its end, or the cycle. -/
theorem Cut.next (h : k.Cut c stop now laps stage laps' stage') (hle : stop ≤ now)
    (hnext : k.Next c .stopped now laps' stage' laps'' stage'') :
    k.Cut c stop now laps stage laps'' stage'' := by
  cases hnext with
  | exhausted hs | unsent hs | sent hs => exact absurd rfl hs
  | cancelled =>
    cases h with
    | unseen hstop =>
      subst hstop
      exact .cancelled
    | failed ho hstop hend => exact .givenUp ho hstop hend
    | ended hnone => cases hnone
  | failed hend ho =>
    cases h with
    | underWay => exact .failed ho hle hend
    | ended hnone => cases hnone
  | delivered hend hlate =>
    cases h with
    | underWay =>
      rw [← hend] at hle
      rw [Bool.eq_iff_iff.mpr (hlate.trans (and_iff_left rfl))]
      exact .delivered hle
    | ended hnone => cases hnone

end Course

/-! ## What has been does not change -/

section Growth

variable {b b' : Bench}

theorem Bench.Dispatch.lt {cycle time send : Nat} {d : Descriptor} {older : List Entry}
    (h : b.Dispatch cycle time send d older) : send < b.transport.sends.length := by
  obtain ⟨x, hx, _⟩ := h.sent
  exact (List.getElem?_eq_some_iff.mp hx).1

/-- A reply that settles a request by itself has done so as the request was sent. -/
theorem Bench.Dispatch.settlement? {cycle time send delay : Nat} {d : Descriptor}
    {answer : Answer} {older : List Entry} (h : b.Dispatch cycle time send d older)
    (hf : b.Follows) (hr : b.transport.script.item send = .after delay answer) :
    b.transport.settlement? send = some ⟨time + delay, answer⟩ := by
  obtain ⟨x, hx, rfl, _⟩ := h.sent
  have hreplied := hf.transport.replied send x hx
  rw [hr] at hreplied
  generalize hs : x.settlement = settled at hreplied
  cases hreplied
  rw [Transport.settlement?, hx, Option.bind_some, hs]

theorem Bench.Dispatch.grow {cycle time send : Nat} {d : Descriptor} {older : List Entry}
    (h : b.Dispatch cycle time send d older) (hg : b.Grows b') :
    b'.Dispatch cycle time send d older where
  noted := h.noted.trans hg.log
  built := hg.factory ▸ h.built
  number := h.number
  sent := by
    obtain ⟨x, hx, ht, hd⟩ := h.sent
    obtain ⟨y, hy, ht', hd', _⟩ := hg.sends _ x hx
    exact ⟨y, hy, ht'.trans ht, hd'.trans hd⟩

theorem Lap.Happened.grow {a : Attempt} {begins : Nat} {x : Lap} (h : x.Happened b a begins)
    (hn : begins + x.lasted ≤ b.now) (hg : b.Grows b') : x.Happened b' a begins := by
  cases h with
  | unsent hl hf => exact .unsent (hl.trans hg.log) (hg.factory ▸ hf)
  | sent hd hw hr => exact .sent (hd.grow hg) (hg.waitEnds hd.lt hn hw) (hg.script ▸ hr)

end Growth

namespace Scheduler

variable {s s' : Scheduler} {k : Course} {laps : List Lap}

theorem Ran.ended_le (h : s.Ran k laps) : k.ended s.cadence laps ≤ s.bench.now := by
  cases h with
  | armed h => exact h
  | lap _ _ _ _ h => exact h

theorem Recorded.history_of_idle (h : s.Recorded k laps .idle) :
    s.history k.id = k.ticked s.cadence laps := by
  rw [h.history, Course.entries, Course.closing, List.append_nil]

theorem Ran.grow (h : s.Ran k laps) (hg : s.bench.Grows s'.bench)
    (hc : s'.cadence = s.cadence) : s'.Ran k laps := by
  induction h with
  | armed ha => exact .armed (Nat.le_trans ha hg.now)
  | lap _ hf ha hx he ih =>
    exact .lap ih hf (hc ▸ ha) (hc ▸ hx.grow he hg) (hc ▸ Nat.le_trans he hg.now)

/-- A cycle that finds its tries used up has had as many as a word can count. -/
theorem Ran.length_le (h : s.Ran k laps)
    (ha : (k.policy s.cadence).maxTries.allows (laps.length + 1) = false) :
    laps.length ≤ s.cadence.maxTries := by
  cases h with
  | armed => exact Nat.zero_le _
  | lap _ _ hallow => exact k.le_maxTries_of_allows _ hallow ha

end Scheduler
end Heartbeat
