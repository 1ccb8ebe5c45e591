import Heartbeat.Proofs.Json.Text
import Heartbeat.Proofs.Json.Number

/-!
# Heartbeat.Proofs.Json.Skip

Passing over a value takes a value of the grammar, nested to any depth.

The stack of open brackets is read as a demand on the rest of the input (`Closes`): soundness is an
induction on the fuel that meets it, and completeness one on the value, with a bound on the fuel
that each value costs.
-/

namespace Heartbeat.Json

/-! ## Starting a value -/

theorem Integer.head {v : Bytes} (h : Integer v) : ∃ d t, v = d :: t ∧ isDigit d = true := by
  cases h with
  | zero => exact ⟨_, _, rfl, by decide⟩
  | other _ hd => exact ⟨_, _, rfl, hd.2 _ (by simp)⟩

theorem Unsigned.head {v : Bytes} (h : Unsigned v) : ∃ d t, v = d :: t ∧ isDigit d = true := by
  obtain ⟨i, f, e, hi, _, _, rfl⟩ := h
  obtain ⟨d, t, rfl, hd⟩ := hi.head
  exact ⟨d, _, rfl, hd⟩

theorem opens_of_isDigit {d : UInt8} (h : isDigit d = true) (t : Bytes) : Opens (d :: t) := by
  have := fun hb : Ends (d :: t) => hb.head.1
  simp only [h, Bool.true_eq_false, imp_false, Ends, not_or] at this
  exact ⟨by simpa using this.1, this.2.2.1⟩

theorem Whole.opens {v : Bytes} (h : Whole v) : Opens v := by
  cases h with
  | null => exact ⟨by decide, by decide⟩
  | flag b => cases b <;> exact ⟨by decide, by decide⟩
  | positive hv =>
    obtain ⟨d, t, rfl, hd⟩ := hv.head
    exact opens_of_isDigit hd t
  | negative _ => exact ⟨by decide, by decide⟩
  | text _ => exact ⟨by decide, by decide⟩

theorem Value.opens {v : Bytes} (h : Value v) : Opens v := by
  cases h with
  | whole h => exact h.opens
  | inside b => cases b <;> exact ⟨by decide, by decide⟩

theorem skipStart_none {s r : Bytes} (h : skipStart s = .ok (none, r)) :
    ∃ w v, Blank w ∧ Whole v ∧ s = w ++ (v ++ r) := by
  simp only [skipStart] at h
  split at h
  · cases h
  · rename_i b t hs
    obtain ⟨-, w, hw, rfl⟩ := skipBlanks_eq_cons.mp hs
    have word {x : Bytes} (hx : Whole (b :: x))
        (h : (expectWord x t).map (none, ·) = .ok ((none : Option Bracket), r)) :
        ∃ w' v, Blank w' ∧ Whole v ∧ w ++ b :: t = w' ++ (v ++ r) := by
      obtain ⟨_, ht, ha⟩ := except_map_eq_ok.mp h
      cases ha
      exact ⟨w, b :: x, hw, hx, by simp [expectWord_eq_ok.mp ht]⟩
    split at h
    · rename_i hb; subst hb; exact word .null h
    · split at h
      · rename_i hb; subst hb; exact word (.flag true) h
      · split at h
        · rename_i hb; subst hb; exact word (.flag false) h
        · split at h
          · rename_i hb
            obtain ⟨_, ht, ha⟩ := except_map_eq_ok.mp h
            cases ha
            obtain ⟨v, hv, rfl⟩ := skipNumber_sound ht
            exact ⟨w, _, hw, .negative hv, by simp [hb]⟩
          · split at h
            · obtain ⟨_, ht, ha⟩ := except_map_eq_ok.mp h
              cases ha
              obtain ⟨v, hv, hs⟩ := skipNumber_sound ht
              exact ⟨w, _, hw, .positive hv, by rw [hs]⟩
            · split at h
              · rename_i hb
                obtain ⟨_, ht, ha⟩ := except_map_eq_ok.mp h
                cases ha
                obtain ⟨q, rfl, hq⟩ := skipText_eq_ok.mp ht
                exact ⟨w, _, hw, .text hq, by simp [hb]⟩
              · (repeat' split at h) <;> cases h

theorem skipStart_some {s r : Bytes} {b : Bracket} (h : skipStart s = .ok (some b, r)) :
    ∃ w, Blank w ∧ s = w ++ b.opening :: r := by
  have whole {x : Except Fault Bytes} : x.map (none, ·) ≠ .ok (some b, r) := by
    cases x <;> simp [Except.map]
  simp only [skipStart] at h
  split at h
  · cases h
  · rename_i c t hs
    obtain ⟨-, w, hw, rfl⟩ := skipBlanks_eq_cons.mp hs
    iterate 6
      split at h
      · exact absurd h whole
    split at h
    · rename_i hc; cases h; exact ⟨w, hw, by rw [hc]; rfl⟩
    · split at h
      · rename_i hc; cases h; exact ⟨w, hw, by rw [hc]; rfl⟩
      · cases h

theorem skipStart_opening {w : Bytes} (hw : Blank w) (b : Bracket) (r : Bytes) :
    skipStart (w ++ b.opening :: r) = .ok (some b, r) := by
  cases b with
  | list =>
    simp only [skipStart, Bracket.opening, skipBlanks_mark hw (b := '['.toUInt8) (by decide)]
    rfl
  | object =>
    simp only [skipStart, Bracket.opening, skipBlanks_mark hw (b := '\x7b'.toUInt8) (by decide)]
    rfl

theorem skipStart_whole {w v r : Bytes} (hw : Blank w) (hv : Whole v) (hr : Ends r) :
    skipStart (w ++ (v ++ r)) = .ok (none, r) := by
  have word {b : UInt8} {x : Bytes} (hb : isBlank b = false) :
      skipBlanks (w ++ b :: (x ++ r)) = b :: (x ++ r) ∧ expectWord x (x ++ r) = .ok r :=
    ⟨skipBlanks_mark hw hb _, expectWord_eq_ok.mpr rfl⟩
  cases hv with
  | null =>
    obtain ⟨hs, he⟩ := word (b := 'n'.toUInt8) (x := ullWord) (by decide)
    simp [skipStart, nullWord, hs, he, Except.map]
  | flag b =>
    cases b with
    | true =>
      obtain ⟨hs, he⟩ := word (b := 't'.toUInt8) (x := rueWord) (by decide)
      have : 't'.toUInt8 ≠ 'n'.toUInt8 := by decide
      simp [skipStart, flagWord, hs, he, Except.map, this]
    | false =>
      obtain ⟨hs, he⟩ := word (b := 'f'.toUInt8) (x := alseWord) (by decide)
      have : 'f'.toUInt8 ≠ 'n'.toUInt8 ∧ 'f'.toUInt8 ≠ 't'.toUInt8 := by decide
      simp [skipStart, flagWord, hs, he, Except.map, this]
  | positive hu =>
    obtain ⟨d, t, rfl, hd⟩ := hu.head
    have he := skipNumber_append hu hr
    have other {c : UInt8} (hc : isDigit c = false) : d ≠ c := by rintro rfl; simp [hc] at hd
    simp only [skipStart, List.cons_append, skipBlanks_mark hw (opens_of_isDigit hd t).1] at he ⊢
    simp [other (c := 'n'.toUInt8) (by decide), other (c := 't'.toUInt8) (by decide),
      other (c := 'f'.toUInt8) (by decide), other (c := '-'.toUInt8) (by decide), hd, he, Except.map]
  | negative hu =>
    have he := skipNumber_append hu hr
    simp only [skipStart, List.cons_append, skipBlanks_mark hw (b := '-'.toUInt8) (by decide), he]
    rfl
  | @text q hq =>
    have he : skipText (q ++ '"'.toUInt8 :: r) = .ok r := skipText_eq_ok.mpr ⟨q, rfl, hq⟩
    simp only [skipStart, List.cons_append, List.append_assoc, List.nil_append,
      skipBlanks_mark hw (b := '"'.toUInt8) (by decide), he]
    rfl

/-! ## Keys -/

theorem skipKey_eq_ok {b : Bracket} {s r : Bytes} :
    skipKey b s = .ok r ↔ ∃ k, b.lead k () ∧ s = k ++ r := by
  cases b with
  | list =>
    constructor
    · rintro h; cases h; exact ⟨[], rfl, rfl⟩
    · rintro ⟨k, hk, rfl⟩; cases hk; rfl
  | object =>
    constructor
    · intro h
      simp only [skipKey] at h
      split at h
      · cases h
      · rename_i c t hs
        obtain ⟨-, w, hw, rfl⟩ := skipBlanks_eq_cons.mp hs
        split at h
        · rename_i hc
          split at h
          · rename_i u hu
            obtain ⟨q, rfl, hq⟩ := skipText_eq_ok.mp hu
            obtain ⟨w', hw', rfl⟩ := expectColon_eq_ok.mp h
            exact ⟨_, ⟨w, q, w', hw, hq, hw', rfl⟩, by simp [hc]⟩
          · cases h
        · cases h
    · rintro ⟨_, ⟨w, q, w', hw, hq, hw', rfl⟩, rfl⟩
      have ht : skipText (q ++ '"'.toUInt8 :: (w' ++ ':'.toUInt8 :: r)) =
          .ok (w' ++ ':'.toUInt8 :: r) := skipText_eq_ok.mpr ⟨q, rfl, hq⟩
      have hc : expectColon (w' ++ ':'.toUInt8 :: r) = .ok r := expectColon_eq_ok.mpr ⟨w', hw', rfl⟩
      simp [skipKey, skipBlanks_mark hw (b := '"'.toUInt8) (by decide), ht, hc]

/-- Blanks may stand before what leads to a value. -/
theorem Bracket.lead_blank {b : Bracket} {w k : Bytes} (hw : Blank w) (hk : b.lead k ()) :
    ∃ k' w', b.lead k' () ∧ Blank w' ∧ w ++ k = k' ++ w' := by
  cases b with
  | list => cases hk; exact ⟨[], w, rfl, hw, by simp⟩
  | object =>
    obtain ⟨w₁, q, w₂, hw₁, hq, hw₂, rfl⟩ := hk
    exact ⟨_, [], ⟨_, q, w₂, hw.append hw₁, hq, hw₂, rfl⟩, blank_nil, by simp⟩

/-! ## Soundness -/

/-- What the open brackets, the innermost first, ask of the input before the rest `r` of it. -/
def Closes : List Bracket → Bytes → Bytes → Prop
  | [], s, r => s = r
  | b :: stack, s, r => ∃ c items t, Rest b.lead c items ∧ (∀ p ∈ items, Value p.2) ∧
      s = c ++ b.closing :: t ∧ Closes stack t r

/-- What is still to come at each stage. -/
def Left : SkipStage → List Bracket → Bytes → Bytes → Prop
  | .value, stack, s, r => ∃ w v t, Blank w ∧ Value v ∧ s = w ++ (v ++ t) ∧ Closes stack t r
  | .opened, [], s, r => s = r
  | .opened, b :: stack, s, r => ∃ c items t, Content b.lead c items ∧ (∀ p ∈ items, Value p.2) ∧
      s = c ++ b.closing :: t ∧ Closes stack t r
  | .closed, stack, s, r => Closes stack s r

/-- A value inside a bracket leaves the rest of that bracket. -/
theorem Left.item {b : Bracket} {stack : List Bracket} {s r : Bytes}
    (h : Left .value (b :: stack) s r) :
    ∃ w v c items t, Blank w ∧ Rest b.lead c items ∧ (∀ p ∈ ((), v) :: items, Value p.2) ∧
      s = w ++ (v ++ (c ++ b.closing :: t)) ∧ Closes stack t r := by
  obtain ⟨w, v, _, hw, hv, rfl, c, items, t, hc, hvs, rfl, ht⟩ := h
  exact ⟨w, v, c, items, t, hw, hc, List.forall_mem_cons.mpr ⟨hv, hvs⟩, rfl, ht⟩

theorem skipFrom_sound {fuel : Nat} {stage : SkipStage} {stack : List Bracket} {s r : Bytes}
    (h : skipFrom fuel stage stack s = .ok r) : Left stage stack s r := by
  induction fuel generalizing stage stack s with
  | zero => cases h
  | succ fuel ih =>
    match stage, stack with
    | .value, stack =>
      simp only [skipFrom] at h
      split at h
      · cases h
      · rename_i b t hs
        obtain ⟨w, hw, rfl⟩ := skipStart_some hs
        obtain ⟨c, items, u, hc, hvs, rfl, hu⟩ := ih h
        exact ⟨w, _, u, hw, .inside b hc hvs, by simp, hu⟩
      · rename_i t hs
        obtain ⟨w, v, hw, hv, rfl⟩ := skipStart_none hs
        exact ⟨w, v, t, hw, .whole hv, rfl, ih h⟩
    | .opened, [] => cases h; rfl
    | .opened, b :: stack =>
      simp only [skipFrom] at h
      split at h
      · cases h
      · rename_i c t hs
        obtain ⟨-, w, hw, rfl⟩ := skipBlanks_eq_cons.mp hs
        split at h
        · rename_i hc
          exact ⟨w, [], t, .blank hw, by simp, by rw [hc], ih h⟩
        · split at h
          · rename_i u hkey
            obtain ⟨k, hk, hs⟩ := skipKey_eq_ok.mp hkey
            obtain ⟨w', v, d, items, x, hw', hd, hvs, rfl, hx⟩ := (ih h).item
            obtain ⟨k', w₀, hk', hw₀, hkw⟩ := Bracket.lead_blank hw hk
            refine ⟨_, _, x, .items hk' (hw₀.append hw') hd, hvs, ?_, hx⟩
            rw [hs, ← List.append_assoc, hkw]
            simp
          · cases h
    | .closed, [] => cases h; rfl
    | .closed, b :: stack =>
      simp only [skipFrom] at h
      split at h
      · cases h
      · rename_i c t hs
        obtain ⟨-, w, hw, rfl⟩ := skipBlanks_eq_cons.mp hs
        split at h
        · rename_i hc
          split at h
          · rename_i u hkey
            obtain ⟨k, hk, rfl⟩ := skipKey_eq_ok.mp hkey
            obtain ⟨w', v, d, items, x, hw', hd, hvs, rfl, hx⟩ := (ih h).item
            exact ⟨_, _, x, .more hw hk hw' hd, hvs, by simp [hc], hx⟩
          · cases h
        · split at h
          · rename_i hc
            exact ⟨w, [], t, .blank hw, by simp, by rw [hc], ih h⟩
          · cases h

/-! ## Completeness -/

/-- A value at `v` is passed over in `k` steps, whatever is open around it. -/
def PassedIn (k : Nat) (v : Bytes) : Prop :=
  ∀ {w r : Bytes} (n : Nat) (stack : List Bracket), Blank w → Ends r →
    skipFrom (n + k) .value stack (w ++ (v ++ r)) = skipFrom n .closed stack r

/-- What is left between brackets is passed over in `k` steps, the closing bracket included. -/
def ClosedIn (k : Nat) (stage : SkipStage) (b : Bracket) (c : Bytes) : Prop :=
  ∀ (n : Nat) (stack : List Bracket) (t : Bytes),
    skipFrom (n + k) stage (b :: stack) (c ++ b.closing :: t) = skipFrom n .closed stack t

/-- Two steps for each byte are enough. -/
def Passed (v : Bytes) : Prop := ∃ k, k ≤ 2 * v.length ∧ PassedIn k v

theorem Bracket.closing_ends (b : Bracket) :
    b.closing = ']'.toUInt8 ∨ b.closing = '\x7d'.toUInt8 := by
  cases b <;> simp [Bracket.closing]

theorem Bracket.closing_facts (b : Bracket) :
    isBlank b.closing = false ∧ b.closing ≠ ','.toUInt8 := by
  cases b <;> decide

theorem Rest.passed {b : Bracket} {c : Bytes} {items : List (Unit × Bytes)}
    (h : Rest b.lead c items) (hv : ∀ p ∈ items, Passed p.2) :
    ∃ k, k ≤ 2 * c.length + 1 ∧ ClosedIn k .closed b c := by
  obtain ⟨hblank, hcomma⟩ := b.closing_facts
  induction h with
  | @blank w hw =>
    refine ⟨1, by omega, fun n stack t => ?_⟩
    simp [skipFrom, skipBlanks_mark hw hblank, hcomma]
  | @more w k w' v c _ items hw hk hw' hc ih =>
    obtain ⟨⟨kv, hkv, pass⟩, hv⟩ := List.forall_mem_cons.mp hv
    obtain ⟨kc, hkc, passRest⟩ := ih hv
    -- the comma is one byte, so it pays for its own step and one more
    refine ⟨kc + kv + 1, by simp at hkv ⊢; omega, fun n stack t => ?_⟩
    have hkey : skipKey b (k ++ (w' ++ (v ++ (c ++ b.closing :: t)))) =
        .ok (w' ++ (v ++ (c ++ b.closing :: t))) := skipKey_eq_ok.mpr ⟨k, hk, rfl⟩
    have hblank' : isBlank ','.toUInt8 = false := by decide
    have hvalue := pass (n + kc) (b :: stack) hw' (hc.ends b.closing_ends t)
    simp only [List.append_assoc, List.cons_append]
    rw [show n + (kc + kv + 1) = (n + kc + kv) + 1 by omega, skipFrom, skipBlanks_mark hw hblank']
    simp only [if_true, hkey]
    rw [hvalue, passRest]

theorem skipKey_first {b : Bracket} {k w v : Bytes} (hk : b.lead k ()) (hw : Blank w)
    (hv : Opens v) (r : Bytes) : ∃ c s w', skipBlanks (k ++ (w ++ (v ++ r))) = c :: s ∧
      c ≠ b.closing ∧ Blank w' ∧ skipKey b (c :: s) = .ok (w' ++ (v ++ r)) := by
  cases b with
  | list =>
    cases hk
    match v, hv with
    | c :: v, ⟨hc, hc'⟩ => exact ⟨c, v ++ r, [], skipBlanks_mark hw hc _, hc', blank_nil, rfl⟩
  | object =>
    obtain ⟨w₁, q, w₂, hw₁, hq, hw₂, rfl⟩ := hk
    refine ⟨'"'.toUInt8, q ++ '"'.toUInt8 :: (w₂ ++ ':'.toUInt8 :: (w ++ (v ++ r))), w, ?_,
      by decide, hw, ?_⟩
    · simpa using skipBlanks_mark hw₁ (by decide) _
    · exact skipKey_eq_ok.mpr ⟨_, ⟨[], q, w₂, blank_nil, hq, hw₂, rfl⟩, by simp⟩

theorem Content.passed {b : Bracket} {c : Bytes} {items : List (Unit × Bytes)}
    (h : Content b.lead c items) (ho : ∀ p ∈ items, Opens p.2) (hv : ∀ p ∈ items, Passed p.2) :
    ∃ k, k ≤ 2 * c.length + 2 ∧ ClosedIn k .opened b c := by
  obtain ⟨hblank, hcomma⟩ := b.closing_facts
  cases h with
  | @blank w hw =>
    refine ⟨1, by omega, fun n stack t => ?_⟩
    simp [skipFrom, skipBlanks_mark hw hblank]
  | @items k w v c _ items hk hw hc =>
    obtain ⟨⟨kv, hkv, pass⟩, hv⟩ := List.forall_mem_cons.mp hv
    obtain ⟨kc, hkc, passRest⟩ := hc.passed hv
    refine ⟨kc + kv + 1, by simp at hkv ⊢; omega, fun n stack t => ?_⟩
    obtain ⟨d, s, w', hs, hd, hw', hkey⟩ :=
      skipKey_first hk hw (List.forall_mem_cons.mp ho).1 (c ++ b.closing :: t)
    have hvalue := pass (n + kc) (b :: stack) hw' (hc.ends b.closing_ends t)
    simp only [List.append_assoc]
    rw [show n + (kc + kv + 1) = (n + kc + kv) + 1 by omega, skipFrom, hs]
    simp only [hd, if_false, hkey]
    rw [hvalue, passRest]

theorem Whole.passedIn {v : Bytes} (hv : Whole v) : PassedIn 1 v := by
  intro w r n stack hw hr
  rw [skipFrom, skipStart_whole hw hv hr]

theorem Value.passed {v : Bytes} (hv : Value v) : Passed v := by
  induction hv with
  | @whole v hv =>
    refine ⟨1, ?_, hv.passedIn⟩
    match v, hv.opens with
    | b :: v, _ => simp; omega
  | @inside b c items hc hvs ih =>
    obtain ⟨k, hk, pass⟩ := hc.passed (fun p hp => (hvs p hp).opens) ih
    refine ⟨k + 1, by simp; omega, fun {w r} n stack hw hr => ?_⟩
    simp only [List.cons_append, List.append_assoc, List.nil_append]
    rw [← Nat.add_assoc, skipFrom, skipStart_opening hw]
    exact pass n stack r

/-- A value is passed over, and nothing else is. -/
theorem skipValue_exact :
    Exact (fun s => (skipValue s).map ((), ·)) (fun v (_ : Unit) => Value v) where
  sound h := by
    obtain ⟨r, h, hr⟩ := except_map_eq_ok.mp h
    cases hr
    obtain ⟨w, v, t, hw, hv, rfl, ht⟩ := skipFrom_sound h
    cases ht
    exact ⟨w, v, hw, hv, rfl⟩
  complete {w v r} _ hw hv hr := by
    obtain ⟨k, hk, pass⟩ := hv.passed
    obtain ⟨n, hn⟩ : ∃ n, 2 * (w ++ (v ++ r)).length + 2 = n + 1 + k :=
      ⟨2 * (w ++ (v ++ r)).length + 1 - k, by simp; omega⟩
    simp only [skipValue]
    rw [hn, pass (n + 1) [] hw hr, skipFrom]
    rfl
  opens hv := hv.opens

end Heartbeat.Json
