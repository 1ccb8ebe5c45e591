import Heartbeat.Proofs.Spacing
import Heartbeat.Proofs.Scripts
import Mathlib.Data.List.Sort

/-!
# Heartbeat.Proofs.Arrangement

What a report makes of a log does not depend on how the entries of different cycles are mixed.

* `Entry.SameOfEach`        — two logs tell the same of every cycle, and besides.
* `Entry.arrange_eq`        — such logs are arranged in the same way.
* `Reachable.log_in_order`  — the log is in the order of time.
* `Reachable.send_times`    — its sends are those of the transport.
-/

namespace Heartbeat

namespace Entry

/-- The entries of one cycle, or those of none. -/
def ofClass (k : Option Nat) (log : List Entry) : List Entry :=
  log.filter fun e => e.event.cycle? == k

def SameOfEach (xs ys : List Entry) : Prop := ∀ k, ofClass k xs = ofClass k ys

/-! ## The order of an arrangement -/

theorem precedes_iff (a b : Entry) :
    a.precedes b = true ↔ a.time < b.time ∨ a.time = b.time ∧ a.rank ≤ b.rank := by
  simp [precedes]

theorem precedes_trans (a b c : Entry) (hab : a.precedes b = true) (hbc : b.precedes c = true) :
    a.precedes c = true := by
  rw [precedes_iff] at hab hbc ⊢
  omega

theorem precedes_total (a b : Entry) : (a.precedes b || b.precedes a) = true := by
  rw [Bool.or_eq_true, precedes_iff, precedes_iff]
  omega

theorem cycle?_of_rank {a b : Entry} (h : a.rank = b.rank) : a.event.cycle? = b.event.cycle? := by
  unfold rank at h
  cases ha : a.event.cycle? with
  | none =>
    cases hb : b.event.cycle? with
    | none => rfl
    | some d => simp [ha, hb] at h
  | some c =>
    cases hb : b.event.cycle? with
    | none => simp [ha, hb] at h
    | some d =>
      simp only [ha, hb] at h
      rw [Nat.succ.inj h]

theorem precedes_of_class {a b : Entry} (hc : a.event.cycle? = b.event.cycle?)
    (ht : a.time ≤ b.time) : a.precedes b = true := by
  have hr : a.rank = b.rank := by rw [rank, rank, hc]
  rw [precedes_iff]
  omega

/-! ## Mixing -/

theorem mem_ofClass {k : Option Nat} {xs : List Entry} {e : Entry} :
    e ∈ ofClass k xs ↔ e ∈ xs ∧ e.event.cycle? = k := by
  simp [ofClass]

theorem ofClass_append (k : Option Nat) (xs ys : List Entry) :
    ofClass k (xs ++ ys) = ofClass k xs ++ ofClass k ys := List.filter_append ..

theorem ofClass_append_other {k : Option Nat} (xs ys : List Entry)
    (h : ∀ e ∈ xs, e.event.cycle? ≠ k) : ofClass k (xs ++ ys) = ofClass k ys := by
  have hnone : ofClass k xs = [] := by
    rw [ofClass, List.filter_eq_nil_iff]
    intro e he
    simp [h e he]
  rw [ofClass_append, hnone, List.nil_append]

theorem ofClass_cons_self (e : Entry) (xs : List Entry) :
    ofClass e.event.cycle? (e :: xs) = e :: ofClass e.event.cycle? xs :=
  List.filter_cons_of_pos (by simp)

theorem SameOfEach.mem {xs ys : List Entry} (h : SameOfEach xs ys) {e : Entry} (he : e ∈ xs) :
    e ∈ ys := by
  have : e ∈ ofClass e.event.cycle? xs := mem_ofClass.mpr ⟨he, rfl⟩
  rw [h] at this
  exact (mem_ofClass.mp this).1

theorem SameOfEach.perm {xs ys : List Entry} (h : SameOfEach xs ys) : xs.Perm ys := by
  rw [List.perm_iff_count]
  intro e
  have hcount : ∀ zs : List Entry, zs.count e = (ofClass e.event.cycle? zs).count e := fun zs =>
    (List.count_filter (by simp)).symm
  rw [hcount xs, hcount ys, h]

theorem SameOfEach.reverse {xs ys : List Entry} (h : SameOfEach xs ys) :
    SameOfEach xs.reverse ys.reverse := by
  intro k
  rw [ofClass, ofClass, List.filter_reverse, List.filter_reverse]
  exact congrArg List.reverse (h k)

/-- What two logs tell alike they also do without what they told before. -/
theorem SameOfEach.of_append {xs ys older older' : List Entry}
    (h : SameOfEach (xs ++ older) (ys ++ older')) (ho : SameOfEach older older') :
    SameOfEach xs ys := by
  intro k
  have := h k
  rw [ofClass_append, ofClass_append, ho k] at this
  exact List.append_cancel_right this

/-- Of lists in order only one tells a given story of every cycle. -/
theorem SameOfEach.eq_of_pairwise {xs ys : List Entry} (h : SameOfEach xs ys)
    (hx : xs.Pairwise fun a b => a.precedes b = true)
    (hy : ys.Pairwise fun a b => a.precedes b = true) : xs = ys := by
  induction xs generalizing ys with
  | nil => exact h.perm.nil_eq
  | cons a xs ih =>
    cases ys with
    | nil => exact h.perm.eq_nil
    | cons b ys =>
      have hclass : a.event.cycle? = b.event.cycle? := by
        -- each head comes before the other one, unless they are the same
        rcases List.mem_cons.mp (h.mem (List.mem_cons_self ..)) with rfl | ha
        · rfl
        · have hperm := h.perm.symm.subset (List.mem_cons_self ..)
          rcases List.mem_cons.mp hperm with rfl | hb
          · rfl
          · have hab := List.rel_of_pairwise_cons hx hb
            have hba := List.rel_of_pairwise_cons hy ha
            rw [precedes_iff] at hab hba
            exact cycle?_of_rank (by omega)
      have hhead := h a.event.cycle?
      rw [ofClass_cons_self, hclass, ofClass_cons_self] at hhead
      obtain rfl : a = b := List.head_eq_of_cons_eq hhead
      have hrest : SameOfEach xs ys := by
        intro k
        have hk := (ofClass_append k [a] xs).symm.trans ((h k).trans (ofClass_append k [a] ys))
        exact List.append_cancel_left hk
      rw [ih hrest hx.of_cons hy.of_cons]

/-- An arrangement keeps the entries of one cycle in their order. -/
theorem ofClass_arrange {xs : List Entry} (h : xs.Pairwise fun a b => a.time ≤ b.time)
    (k : Option Nat) : ofClass k (arrange xs) = ofClass k xs := by
  have hpair : (ofClass k xs).Pairwise fun a b => a.precedes b = true := by
    refine (h.filter _).imp_of_mem ?_
    intro a b ha hb hle
    rw [← ofClass, mem_ofClass] at ha hb
    exact precedes_of_class (ha.2.trans hb.2.symm) hle
  have hsub : (ofClass k xs).Sublist (arrange xs) :=
    List.sublist_mergeSort precedes_trans precedes_total hpair List.filter_sublist
  have hclass : (ofClass k (ofClass k xs)).Sublist (ofClass k (arrange xs)) := hsub.filter _
  have hperm : (ofClass k (arrange xs)).Perm (ofClass k xs) :=
    (List.mergeSort_perm xs precedes).filter _
  have htwice : ofClass k (ofClass k xs) = ofClass k xs := by simp [ofClass]
  rw [htwice] at hclass
  exact (hclass.eq_of_length hperm.length_eq.symm).symm

/-- Logs that tell the same of each cycle are arranged in the same way. -/
theorem arrange_eq {xs ys : List Entry} (h : SameOfEach xs ys)
    (hx : xs.Pairwise fun a b => a.time ≤ b.time) (hy : ys.Pairwise fun a b => a.time ≤ b.time) :
    arrange xs = arrange ys := by
  have hsame : SameOfEach (arrange xs) (arrange ys) := by
    intro k
    rw [ofClass_arrange hx, ofClass_arrange hy, h k]
  exact hsame.eq_of_pairwise (List.pairwise_mergeSort precedes_trans precedes_total xs)
    (List.pairwise_mergeSort precedes_trans precedes_total ys)

end Entry

namespace Transport

theorem times_settleAll (a : Settlement) (due : List Held) (t : Transport) :
    (due.foldl (fun t h => t.settle a h.send) t).sends.map (·.time) = t.sends.map (·.time) := by
  induction due generalizing t with
  | nil => rfl
  | cons h due ih =>
    rw [List.foldl_cons, ih]
    refine List.ext_getElem? fun n => ?_
    simp only [settle, List.getElem?_map, List.getElem?_modify]
    by_cases hn : h.send = n <;> cases t.sends[n]? <;> simp [hn]

theorem times_release (t : Transport) (now : Nat) (r : Reply) :
    (t.release now r).sends.map (·.time) = t.sends.map (·.time) := by
  cases r with
  | hold delay => rfl
  | after delay answer => exact times_settleAll _ _ _

end Transport

namespace Scheduler

variable {s s' : Scheduler}

/-! ## The order of the log -/

theorem Reachable.log_in_order (h : Reachable s) :
    s.bench.log.Pairwise fun later earlier => earlier.time ≤ later.time := by
  induction h with
  | fresh => exact List.Pairwise.nil
  | @move s s' h hm ih =>
    obtain ⟨new, hl, hn⟩ := hm.logs
    have hpast := h.past
    rw [hl, List.pairwise_append]
    refine ⟨?_, ih, ?_⟩
    · rw [List.pairwise_iff_forall_sublist]
      intro a b hab
      rw [hn a (hab.subset (by simp)), hn b (hab.subset (by simp))]
    · intro a ha b hb
      rw [hn a ha]
      exact hpast b hb

/-- When the log says that descriptors were sent, the last one first. -/
def sendingTimes (s : Scheduler) : List Nat := (s.bench.log.filter (·.event.isSending)).map (·.time)

theorem sendingTimes_of_logs {new : List Entry} (hl : s'.bench.log = new ++ s.bench.log)
    (hn : ∀ e ∈ new, e.event.isSending = false) : s'.sendingTimes = s.sendingTimes := by
  have hnone : new.filter (·.event.isSending) = [] := by
    rw [List.filter_eq_nil_iff]
    intro e he
    simp [hn e he]
  rw [sendingTimes, hl, List.filter_append, hnone, List.nil_append, sendingTimes]

/-- The log tells of every send at the time at which it was made. -/
theorem Reachable.send_times (h : Reachable s) :
    s.bench.transport.sends.map (·.time) = s.sendingTimes.reverse := by
  induction h with
  | fresh => rfl
  | @move s s' h hm ih =>
    have hv : ∀ (a : Attempt) (o : Outcome), (a.verdict o).isSending = false :=
      Attempt.isSending_verdict
    have keep : ∀ (new : List Entry) {s' : Scheduler}, s'.bench.log = new ++ s.bench.log →
        (∀ e ∈ new, e.event.isSending = false) →
        s'.bench.transport.sends.map (·.time) = s.bench.transport.sends.map (·.time) →
        s'.bench.transport.sends.map (·.time) = s'.sendingTimes.reverse := by
      intro new s' hl hn hs
      rw [hs, sendingTimes_of_logs hl hn, ih]
    cases hm.effect with
    | started | refreshed => exact keep [_] rfl (by simp [Event.isSending]) rfl
    | noted he =>
      exact keep [_] rfl (by simpa using (Event.isCall_of_cycle? he).2) rfl
    | shutDown | unchanged | waited => exact keep [] rfl (by simp) rfl
    | released r => exact keep [] rfl (by simp) (Transport.times_release _ _ r)
    | polled _ _ ht =>
      cases ht with
      | cancelled | exhausted => exact keep [_] rfl (by simp [Event.isSending]) rfl
      | unsent => exact keep [_] rfl (by simp) rfl
      | retried | delivered => exact keep [_] rfl (by simp) rfl
      | rearmed | notRearmed =>
        exact keep [_, _] rfl (by simp [Event.isSending, Attempt.verdict]) rfl
      | sent => simp [Transport.send, sendingTimes, Event.isSending, ih]

end Scheduler
end Heartbeat
