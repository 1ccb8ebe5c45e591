import Heartbeat.Proofs.Json.Scan

/-!
# Heartbeat.Proofs.Json.Number

Numbers as the grammar has them: `skipNumber` passes over any of them, and `scanNumber` answers a
natural number for plain digits only.
-/

namespace Heartbeat.Json

theorem Ends.head {b : UInt8} {r : Bytes} (h : Ends (b :: r)) :
    isDigit b = false ∧ b ≠ '.'.toUInt8 ∧ isExponentMark b = false := by
  have blank : isBlank b = true → b = ' '.toUInt8 ∨ b = '\n'.toUInt8 ∨ b = '\t'.toUInt8 ∨
      b = '\r'.toUInt8 := by
    simp [isBlank, or_assoc]
  rcases h with h | rfl | rfl | rfl
  · rcases blank h with rfl | rfl | rfl | rfl <;> decide
  all_goals decide

/-! ## Runs of digits -/

/-- What follows is no digit. -/
def Stops (r : Bytes) : Prop := (r.head?.map isDigit).getD false = false

theorem Ends.stops {r : Bytes} (h : Ends r) : Stops r := by
  cases r with
  | nil => rfl
  | cons b r => exact h.head.1

theorem stops_cons {b : UInt8} {r : Bytes} (h : isDigit b = false) : Stops (b :: r) := by
  simpa [Stops] using h

theorem takeWhile_digits {d : Bytes} (hd : ∀ b ∈ d, isDigit b = true) {r : Bytes}
    (hr : Stops r) : (d ++ r).takeWhile isDigit = d := by
  rw [List.takeWhile_append_of_pos hd]
  cases r with
  | nil => simp
  | cons b r => simp_all [Stops]

theorem dropWhile_digits {d : Bytes} (hd : ∀ b ∈ d, isDigit b = true) {r : Bytes}
    (hr : Stops r) : (d ++ r).dropWhile isDigit = r := by
  rw [List.dropWhile_append_of_pos hd]
  cases r with
  | nil => rfl
  | cons b r => simp_all [Stops]

/-- The digits at the front, split off. -/
theorem digits_front {b : UInt8} (hb : isDigit b = true) (s : Bytes) :
    Digits (b :: s.takeWhile isDigit) ∧
      b :: s = (b :: s.takeWhile isDigit) ++ s.dropWhile isDigit := by
  refine ⟨⟨by simp, ?_⟩, by simp [List.takeWhile_append_dropWhile]⟩
  intro d hd
  rcases List.mem_cons.mp hd with rfl | hd
  · exact hb
  · exact List.mem_takeWhile_imp hd

/-! ## Passing over -/

theorem isSign_of_isDigit {b : UInt8} (h : isDigit b = true) : isSign b = false := by
  have plus : b ≠ '+'.toUInt8 := by rintro rfl; revert h; decide
  have minus : b ≠ '-'.toUInt8 := by rintro rfl; revert h; decide
  simp [isSign, plus, minus]

theorem skipExponent_sound {e : UInt8} (he : isExponentMark e = true) {s r : Bytes}
    (h : skipExponent s = .ok r) : ∃ x, Exponent (e :: x) ∧ s = x ++ r := by
  unfold skipExponent at h
  split at h
  · cases h
  · rename_i b t ht
    split at h
    · rename_i hb
      cases h
      obtain ⟨hd, hs⟩ := digits_front hb t
      split at ht
      · cases s with
        | nil => cases ht
        | cons sign s =>
          rename_i hsign
          cases ht
          exact ⟨_, .signed he (by simpa using hsign) hd, by rw [List.cons_append, ← hs]⟩
      · exact ⟨_, .plain he hd, by rw [ht, ← hs]⟩
    · cases h

theorem skipExponent_append {e : UInt8} {x r : Bytes} (h : Exponent (e :: x)) (hr : Stops r) :
    skipExponent (x ++ r) = .ok r := by
  cases h with
  | plain _ hd =>
    match x, hd with
    | b :: d, ⟨_, hd⟩ =>
      have hb := hd b (by simp)
      simp [skipExponent, isSign_of_isDigit hb, hb,
        dropWhile_digits (fun c hc => hd c (List.mem_cons_of_mem _ hc)) hr]
  | @signed _ sign d _ hs hd =>
    match d, hd with
    | b :: d, ⟨_, hd⟩ =>
      simp [skipExponent, hs, hd b (by simp),
        dropWhile_digits (fun c hc => hd c (List.mem_cons_of_mem _ hc)) hr]

theorem skipFraction_sound {s r : Bytes} (h : skipFraction s = .ok r) :
    ∃ f e, Fraction ('.'.toUInt8 :: f) ∧ Exponent e ∧ s = f ++ (e ++ r) := by
  unfold skipFraction at h
  have split_s := (List.takeWhile_append_dropWhile (p := isDigit) (l := s)).symm
  have digits : ∀ d ∈ s.takeWhile isDigit, isDigit d = true := fun _ => List.mem_takeWhile_imp
  split at h
  · cases h
  · rename_i b d ht hr
    cases h
    rw [ht, hr] at split_s
    rw [ht] at digits
    exact ⟨_, [], .some ⟨by simp, digits⟩, .none, by simpa using split_s⟩
  · rename_i b d c t ht hr
    rw [ht, hr] at split_s
    rw [ht] at digits
    have hf : Fraction ('.'.toUInt8 :: b :: d) := .some ⟨by simp, digits⟩
    split at h
    · rename_i hc
      obtain ⟨x, hx, rfl⟩ := skipExponent_sound hc h
      exact ⟨_, c :: x, hf, hx, split_s⟩
    · cases h; exact ⟨_, [], hf, .none, split_s⟩

theorem Exponent.stops {e : Bytes} (h : Exponent e) {r : Bytes} (hr : Stops r) :
    Stops (e ++ r) := by
  have mark : ∀ {b : UInt8}, isExponentMark b = true → isDigit b = false := by
    intro b hb
    have : b = 'e'.toUInt8 ∨ b = 'E'.toUInt8 := by simpa [isExponentMark] using hb
    rcases this with rfl | rfl <;> decide
  cases h with
  | none => exact hr
  | plain he _ => exact stops_cons (mark he)
  | signed he _ _ => exact stops_cons (mark he)

/-- The exponent is tried when its mark comes next, and only then. -/
theorem Exponent.cases_append {e : Bytes} (h : Exponent e) {r : Bytes} (hr : Ends r) :
    (e = [] ∧ ∀ b t, r = b :: t → b ≠ '.'.toUInt8 ∧ isExponentMark b = false) ∨
      ∃ b x, e = b :: x ∧ isExponentMark b = true ∧ b ≠ '.'.toUInt8 := by
  have point : ∀ {b : UInt8}, isExponentMark b = true → b ≠ '.'.toUInt8 := by
    rintro b hb rfl
    revert hb
    decide
  cases h with
  | none => exact .inl ⟨rfl, by rintro b t rfl; exact hr.head.2⟩
  | plain he _ => exact .inr ⟨_, _, rfl, he, point he⟩
  | signed he _ _ => exact .inr ⟨_, _, rfl, he, point he⟩

theorem skipFraction_append {f e r : Bytes} (hf : Fraction ('.'.toUInt8 :: f)) (he : Exponent e)
    (hr : Ends r) : skipFraction (f ++ (e ++ r)) = .ok r := by
  cases hf with
  | some hf =>
    have hs := he.stops hr.stops
    match f, hf with
    | b :: f, ⟨_, hd⟩ =>
      simp only [skipFraction, takeWhile_digits hd hs, dropWhile_digits hd hs]
      rcases he.cases_append hr with ⟨rfl, hend⟩ | ⟨c, x, rfl, hc, _⟩
      · cases r with
        | nil => rfl
        | cons c r => simp [(hend c r rfl).2]
      · simpa [hc] using skipExponent_append he hr.stops

theorem skipIntegerEnd_sound {s r : Bytes} (h : skipIntegerEnd s = .ok r) :
    ∃ f e, Fraction f ∧ Exponent e ∧ s = f ++ (e ++ r) := by
  cases s with
  | nil => cases h; exact ⟨[], [], .none, .none, rfl⟩
  | cons b s =>
    simp only [skipIntegerEnd] at h
    split at h
    · rename_i hb
      obtain ⟨f, e, hf, he, rfl⟩ := skipFraction_sound h
      exact ⟨_, e, hf, he, by rw [hb]; rfl⟩
    · split at h
      · rename_i hb
        obtain ⟨x, hx, rfl⟩ := skipExponent_sound hb h
        exact ⟨[], b :: x, .none, hx, rfl⟩
      · cases h; exact ⟨[], [], .none, .none, rfl⟩

theorem skipIntegerEnd_append {f e r : Bytes} (hf : Fraction f) (he : Exponent e) (hr : Ends r) :
    skipIntegerEnd (f ++ (e ++ r)) = .ok r := by
  cases hf with
  | some hd => simpa [skipIntegerEnd] using skipFraction_append (.some hd) he hr
  | none =>
    rcases he.cases_append hr with ⟨rfl, hend⟩ | ⟨c, x, rfl, hc, hp⟩
    · cases r with
      | nil => rfl
      | cons c r => simp [skipIntegerEnd, hend c r rfl]
    · simpa [skipIntegerEnd, hc, hp] using skipExponent_append he hr.stops

theorem skipNumber_sound {s r : Bytes} (h : skipNumber s = .ok r) :
    ∃ v, Unsigned v ∧ s = v ++ r := by
  cases s with
  | nil => cases h
  | cons b s =>
    simp only [skipNumber] at h
    split at h
    · rename_i hb
      split at h
      · cases h
      · obtain ⟨f, e, hf, he, rfl⟩ := skipIntegerEnd_sound h
        exact ⟨_, ⟨_, f, e, .zero, hf, he, rfl⟩, by simp [hb]⟩
    · rename_i hz
      split at h
      · rename_i hb
        obtain ⟨hd, hs⟩ := digits_front hb s
        obtain ⟨f, e, hf, he, hrest⟩ := skipIntegerEnd_sound h
        exact ⟨_, ⟨_, f, e, .other hz hd, hf, he, rfl⟩, by rw [hs, hrest]; simp⟩
      · cases h

theorem skipNumber_append {v r : Bytes} (hv : Unsigned v) (hr : Ends r) :
    skipNumber (v ++ r) = .ok r := by
  obtain ⟨i, f, e, hi, hf, he, rfl⟩ := hv
  have hs : Stops (f ++ (e ++ r)) := by
    cases hf with
    | none => exact he.stops hr.stops
    | some _ => exact stops_cons (by decide)
  have htail := skipIntegerEnd_append hf he hr
  simp only [List.append_assoc]
  cases hi with
  | zero =>
    rw [Stops] at hs
    simp only [skipNumber, List.cons_append, List.nil_append, if_true]
    rw [hs, htail]
    rfl
  | @other d i hz hd =>
    obtain ⟨_, hd⟩ := hd
    simp [skipNumber, hz, hd d (by simp),
      dropWhile_digits (fun c hc => hd c (List.mem_cons_of_mem _ hc)) hs, htail]

/-! ## Natural numbers -/

theorem le_decimalFrom (n : Nat) (ds : Bytes) : n ≤ decimalFrom n ds := by
  induction ds generalizing n with
  | nil => exact Nat.le_refl n
  | cons d ds ih =>
    have grows : n ≤ 10 * n + digitValue d := by omega
    exact Nat.le_trans grows (ih _)

/-- Digits that all fit give their value. -/
theorem absorb_fits {limit n m : Nat} {ds : Bytes} (h : absorb limit n ds = (m, [])) :
    decimalFrom n ds = m := by
  induction ds generalizing n with
  | nil => cases h; rfl
  | cons d ds ih =>
    simp only [absorb] at h
    split at h
    · exact ih h
    · cases h

theorem absorb_of_lt {limit n : Nat} {ds : Bytes} (h : decimalFrom n ds < limit) :
    absorb limit n ds = (decimalFrom n ds, []) := by
  induction ds generalizing n with
  | nil => rfl
  | cons d ds ih =>
    have below := Nat.lt_of_le_of_lt (le_decimalFrom (10 * n + digitValue d) ds) h
    simp only [absorb, if_pos below]
    exact ih h

/-- Reading did not end in a natural number. -/
def NotNatural (a : Except Fault (Number × Bytes)) : Prop := ∀ n r, a ≠ .ok (.natural n, r)

theorem scaledNumber_notNatural (negative : Bool) (n : Nat) (e : Int) (s : Bytes) :
    NotNatural (scaledNumber negative n e s) := by
  intro m r h
  unfold scaledNumber at h
  split at h <;> cases h

theorem scanExponent_notNatural (negative : Bool) (n : Nat) (e : Int) (s : Bytes) :
    NotNatural (scanExponent negative n e s) := by
  intro m r h
  simp only [scanExponent] at h
  (repeat' split at h) <;> first | exact scaledNumber_notNatural _ _ _ _ _ _ h | cases h

theorem scanFraction_notNatural (negative : Bool) (n : Nat) (e : Int) (s : Bytes) :
    NotNatural (scanFraction negative n e s) := by
  intro m r h
  simp only [scanFraction] at h
  split at h
  · split at h <;> cases h
  · unfold scanFractionEnd at h
    split at h
    · exact scaledNumber_notNatural _ _ _ _ _ _ h
    · split at h
      · exact scanExponent_notNatural _ _ _ _ _ _ h
      · exact scaledNumber_notNatural _ _ _ _ _ _ h

theorem scanIntegerEnd_natural {negative : Bool} {n m excess : Nat} {s r : Bytes}
    (h : scanIntegerEnd negative n excess s = .ok (.natural m, r)) :
    negative = false ∧ n = m ∧ excess = 0 ∧ s = r := by
  have plain : ∀ {s : Bytes}, (if excess = 0 then .ok (plainNumber negative n, s)
      else scaledNumber negative n excess s) = .ok (.natural m, r) →
      negative = false ∧ n = m ∧ excess = 0 ∧ s = r := by
    intro s h
    split at h
    · rename_i he
      cases negative with
      | false => cases h; exact ⟨rfl, rfl, he, rfl⟩
      | true =>
        simp only [plainNumber, if_true] at h
        split at h <;> cases h
    · exact absurd h (scaledNumber_notNatural _ _ _ _ _ _)
  simp only [scanIntegerEnd] at h
  split at h
  · exact plain h
  · split at h
    · exact absurd h (scanFraction_notNatural _ _ _ _ _ _)
    · split at h
      · exact absurd h (scanExponent_notNatural _ _ _ _ _ _)
      · exact plain h

theorem scanNumber_natural {negative : Bool} {n : Nat} {s r : Bytes}
    (h : scanNumber negative s = .ok (.natural n, r)) :
    negative = false ∧ ∃ v, Integer v ∧ decimal v = n ∧ s = v ++ r := by
  cases s with
  | nil => cases h
  | cons b s =>
    simp only [scanNumber] at h
    split at h
    · rename_i hb
      split at h
      · cases h
      · obtain ⟨hneg, rfl, -, rfl⟩ := scanIntegerEnd_natural h
        exact ⟨hneg, _, .zero, by decide, by simp [hb]⟩
    · rename_i hz
      split at h
      · rename_i hb
        obtain ⟨hd, hs⟩ := digits_front hb s
        obtain ⟨hneg, hn, he, hr⟩ := scanIntegerEnd_natural h
        simp only [List.takeWhile_cons_of_pos hb, List.dropWhile_cons_of_pos hb] at hn he hr
        refine ⟨hneg, _, .other hz hd, ?_, by rw [← hr, ← hs]⟩
        rw [← hn]
        exact absorb_fits (Prod.ext rfl (List.length_eq_zero_iff.mp he))
      · cases h

theorem scanNumber_append {v r : Bytes} (hv : Integer v) (hl : decimal v < significandLimit)
    (hr : Ends r) : scanNumber false (v ++ r) = .ok (.natural (decimal v), r) := by
  have plain (n : Nat) : scanIntegerEnd false n 0 r = .ok (.natural n, r) := by
    cases r with
    | nil => rfl
    | cons b r =>
      obtain ⟨-, hp, he⟩ := hr.head
      simp [scanIntegerEnd, hp, he, plainNumber]
  cases hv with
  | zero =>
    have hs := hr.stops
    rw [Stops] at hs
    simp only [scanNumber, List.cons_append, List.nil_append, if_true]
    rw [hs]
    exact plain 0
  | @other d i hz hd =>
    obtain ⟨_, hd⟩ := hd
    have htake := takeWhile_digits hd hr.stops
    have hdrop := dropWhile_digits hd hr.stops
    rw [List.cons_append] at htake hdrop
    simp only [scanNumber, List.cons_append, hz, if_false, hd d (by simp), if_true, htake, hdrop]
    rw [absorb_of_lt hl]
    exact plain _

end Heartbeat.Json
