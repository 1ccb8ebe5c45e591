import Heartbeat.Proofs.Growth

/-!
# Heartbeat.Proofs.Wait

How a wait for the answer to a send ends, said apart from the bench.

* `WaitEnds began timeout answer lasted o` — the wait lasts until the answer comes, if that is in
  time, and its whole timeout otherwise.
* `waitEnds_conclude` — so says `conclude`; `conclude_after` is the case of a prompt reply.
* `WaitEnds.keep`     — an answer that comes after the end takes nothing back.
-/

namespace Heartbeat

/-- An answer that comes at the very end of a wait may be heard or not; the wait lasts as long. -/
inductive WaitEnds (began timeout : Nat) (answer : Option Settlement) : Nat → Outcome → Prop where
  | answered {a : Settlement} :
      answer = some a → a.time ≤ began + timeout →
      WaitEnds began timeout answer (a.time - began) a.answer.outcome
  | unanswered :
      (∀ a, answer = some a → began + timeout ≤ a.time) →
      WaitEnds began timeout answer timeout .timeout

theorem began_le_conclude (began timeout : Nat) (a : Option Settlement) :
    began ≤ (conclude began timeout a).1 := by
  cases a with
  | none => exact Nat.le_add_right _ _
  | some a =>
    simp only [conclude]
    split
    · exact Nat.le_max_left _ _
    · exact Nat.le_add_right _ _

theorem conclude_le (began timeout : Nat) (a : Option Settlement) :
    (conclude began timeout a).1 ≤ began + timeout := by
  cases a with
  | none => exact Nat.le_refl _
  | some a =>
    simp only [conclude]
    split
    · exact Nat.max_le.mpr ⟨Nat.le_add_right _ _, ‹_›⟩
    · exact Nat.le_refl _

/-- An answer that comes now does not end a wait before now. -/
theorem le_conclude_some {now began timeout : Nat} {a : Settlement} (ha : now ≤ a.time)
    (hn : now ≤ began + timeout) : now ≤ (conclude began timeout (some a)).1 := by
  simp only [conclude]
  split
  · exact Nat.le_trans ha (Nat.le_max_right _ _)
  · exact hn

theorem waitEnds_conclude (began timeout : Nat) (answer : Option Settlement) :
    WaitEnds began timeout answer ((conclude began timeout answer).1 - began)
      (conclude began timeout answer).2 := by
  cases answer with
  | none =>
    simp only [conclude, Nat.add_sub_cancel_left]
    exact .unanswered fun _ h => by cases h
  | some a =>
    simp only [conclude]
    split
    · rename_i ha
      have : max began a.time - began = a.time - began := by omega
      rw [this]
      exact .answered rfl ha
    · rename_i ha
      rw [Nat.add_sub_cancel_left]
      refine .unanswered fun b h => ?_
      cases h
      omega

/-- A reply that settles its request by itself ends the wait if its delay is short enough. -/
theorem conclude_after (began timeout delay : Nat) (answer : Answer) :
    ((conclude began timeout (some ⟨began + delay, answer⟩)).1 - began,
        (conclude began timeout (some ⟨began + delay, answer⟩)).2) =
      if delay ≤ timeout then (delay, answer.outcome) else (timeout, .timeout) := by
  simp only [conclude, Nat.add_le_add_iff_left]
  split
  · rw [Nat.max_eq_right (Nat.le_add_right began delay), Nat.add_sub_cancel_left]
  · rw [Nat.add_sub_cancel_left]

theorem WaitEnds.keep {began timeout lasted now : Nat} {answer answer' : Option Settlement}
    {o : Outcome} (h : WaitEnds began timeout answer lasted o) (hn : began + lasted ≤ now)
    (ha : answer' = answer ∨ answer = none ∧ ∃ a, answer' = some a ∧ now ≤ a.time) :
    WaitEnds began timeout answer' lasted o := by
  rcases ha with rfl | ⟨rfl, a, rfl, hl⟩
  · exact h
  · cases h with
    | answered h => cases h
    | unanswered =>
      refine .unanswered fun b h => ?_
      cases h
      exact Nat.le_trans hn hl

/-- What was known of an answer stays, or it came from now on. -/
theorem KeepsSends.settlement? {now send : Nat} {t t' : Transport}
    (h : KeepsSends now t.sends t'.sends) (hs : send < t.sends.length) :
    t'.settlement? send = t.settlement? send ∨
      t.settlement? send = none ∧ ∃ a, t'.settlement? send = some a ∧ now ≤ a.time := by
  obtain ⟨y, hy, _, _, ha⟩ := h send _ (List.getElem?_eq_getElem hs)
  simpa [Transport.settlement?, hy, List.getElem?_eq_getElem hs] using ha

namespace Bench.Grows

variable {b b' : Bench}

theorem sends_length_le (h : b.Grows b') :
    b.transport.sends.length ≤ b'.transport.sends.length := by
  refine Nat.le_of_not_lt fun hlt => ?_
  obtain ⟨y, hy, _⟩ := h.sends _ _ (List.getElem?_eq_getElem hlt)
  rw [List.getElem?_eq_none (Nat.le_refl _)] at hy
  cases hy

/-- A wait that is not over is not over when something more is known at the same time. -/
theorem le_awaits (h : b.Grows b') (hn : b'.now = b.now) {send began timeout : Nat}
    (hs : send < b.transport.sends.length) (hw : b.now ≤ (b.awaits send began timeout).1) :
    b'.now ≤ (b'.awaits send began timeout).1 := by
  rw [hn]
  rcases h.sends.settlement? hs with ha | ⟨hnone, a, ha, hl⟩
  · rw [awaits, ha]; exact hw
  · rw [awaits, hnone] at hw
    rw [awaits, ha]; exact le_conclude_some hl hw

theorem waitEnds (h : b.Grows b') {send began timeout lasted : Nat} {o : Outcome}
    (hs : send < b.transport.sends.length) (hn : began + lasted ≤ b.now)
    (hw : WaitEnds began timeout (b.transport.settlement? send) lasted o) :
    WaitEnds began timeout (b'.transport.settlement? send) lasted o :=
  hw.keep hn (h.sends.settlement? hs)

end Bench.Grows
end Heartbeat
