import Heartbeat.Proofs.Json.Grammar
import Mathlib.Data.List.TakeWhile

/-!
# Heartbeat.Proofs.Json.Scan

What the smallest steps of reading take off the front of their input.

* `Opens`, `Ends` — how a value starts, and what can come behind one.
* `Exact`         — a scanner that reads what a grammar spells, neither less nor more.
* `Items`         — what is left between brackets, before the first item or behind one.
-/

namespace Heartbeat.Json

/-- No blank, and not the end of a list. -/
def Opens : Bytes → Prop
  | [] => False
  | b :: _ => isBlank b = false ∧ b ≠ ']'.toUInt8

/-- Nothing that could be more of a value. -/
def Ends : Bytes → Prop
  | [] => True
  | b :: _ => isBlank b = true ∨ b = ','.toUInt8 ∨ b = ']'.toUInt8 ∨ b = '\x7d'.toUInt8

/-- The scanner passes over blanks, then reads a value of the grammar `P`. A value can be read
when nothing behind it would belong to it. -/
structure Exact {α : Type} (f : Scanner α) (P : Bytes → α → Prop) : Prop where
  sound : ∀ {s r : Bytes} {x : α},
    f s = .ok (x, r) → ∃ w v, Blank w ∧ P v x ∧ s = w ++ (v ++ r)
  complete : ∀ {w v r : Bytes} {x : α},
    Blank w → P v x → Ends r → f (w ++ (v ++ r)) = .ok (x, r)
  opens : ∀ {v : Bytes} {x : α}, P v x → Opens v

theorem except_map_eq_ok {ε α β : Type} {f : α → β} {x : Except ε α} {y : β} :
    x.map f = .ok y ↔ ∃ a, x = .ok a ∧ f a = y := by
  cases x <;> simp [Except.map]

/-! ## Blanks -/

theorem blank_nil : Blank [] := by simp [Blank]

theorem Blank.append {w w' : Bytes} (h : Blank w) (h' : Blank w') : Blank (w ++ w') := by
  intro b hb
  rcases List.mem_append.mp hb with hb | hb
  · exact h b hb
  · exact h' b hb

theorem skipBlanks_append {w : Bytes} (h : Blank w) (s : Bytes) :
    skipBlanks (w ++ s) = skipBlanks s :=
  List.dropWhile_append_of_pos h

theorem skipBlanks_mark {w : Bytes} (h : Blank w) {b : UInt8} (hb : isBlank b = false)
    (s : Bytes) : skipBlanks (w ++ b :: s) = b :: s := by
  rw [skipBlanks_append h]
  simp [skipBlanks, hb]

theorem skipBlanks_spec (s : Bytes) : ∃ w, Blank w ∧ s = w ++ skipBlanks s :=
  ⟨s.takeWhile isBlank, fun _ hb => List.mem_takeWhile_imp hb,
    (List.takeWhile_append_dropWhile).symm⟩

theorem skipBlanks_eq_nil {s : Bytes} : skipBlanks s = [] ↔ Blank s :=
  List.dropWhile_eq_nil_iff

theorem skipBlanks_eq_cons {s r : Bytes} {b : UInt8} :
    skipBlanks s = b :: r ↔ isBlank b = false ∧ ∃ w, Blank w ∧ s = w ++ b :: r := by
  constructor
  · intro h
    obtain ⟨w, hw, hs⟩ := skipBlanks_spec s
    rw [h] at hs
    refine ⟨?_, w, hw, hs⟩
    have hb := List.head?_dropWhile_not isBlank s
    rw [show s.dropWhile isBlank = b :: r from h] at hb
    simpa using hb
  · rintro ⟨hb, w, hw, rfl⟩
    exact skipBlanks_mark hw hb r

/-! ## Words and marks -/

theorem expectWord_eq_ok {word s r : Bytes} : expectWord word s = .ok r ↔ s = word ++ r := by
  induction word generalizing s with
  | nil => simp [expectWord]
  | cons c word ih =>
    cases s with
    | nil => simp [expectWord]
    | cons b s =>
      by_cases h : b = c
      · simp [expectWord, h, ih]
      · simp [expectWord, h]

/-- All steps that take one mark find it the same way. -/
theorem mark_eq_ok {s : Bytes} {b : UInt8} (hb : isBlank b = false) (r : Bytes) :
    (∃ t, skipBlanks s = b :: t ∧ t = r) ↔ ∃ w, Blank w ∧ s = w ++ b :: r := by
  constructor
  · rintro ⟨t, h, rfl⟩
    exact (skipBlanks_eq_cons.mp h).2
  · intro h
    exact ⟨r, skipBlanks_eq_cons.mpr ⟨hb, h⟩, rfl⟩

theorem expectColon_eq_ok {s r : Bytes} :
    expectColon s = .ok r ↔ ∃ w, Blank w ∧ s = w ++ ':'.toUInt8 :: r := by
  rw [← mark_eq_ok (by decide)]
  unfold expectColon
  split
  · simp_all
  · rename_i b t h
    by_cases hb : b = ':'.toUInt8 <;> simp [h, hb]

@[simp] theorem closeList_mark (r : Bytes) : closeList (']'.toUInt8 :: r) = .ok r := rfl

theorem closeList_eq_ok {s r : Bytes} :
    closeList s = .ok r ↔ ∃ w, Blank w ∧ s = w ++ ']'.toUInt8 :: r := by
  rw [← mark_eq_ok (by decide)]
  unfold closeList
  split
  · simp_all
  · rename_i b t h
    by_cases hb : b = ']'.toUInt8
    · simp [h, hb]
    · simp only [hb, if_false, h]
      split <;> (try split) <;> simp [hb]

@[simp] theorem closeObject_mark (r : Bytes) : closeObject ('\x7d'.toUInt8 :: r) = .ok r := rfl

theorem expectEnd_eq_ok {s : Bytes} {u : Unit} : expectEnd s = .ok u ↔ Blank s := by
  rw [← skipBlanks_eq_nil]
  unfold expectEnd
  split <;> simp_all

/-! ## Between brackets -/

section Items

variable {α β : Type} {lead : Bytes → α → Prop}

/-- What is left between brackets: all of it, or what comes behind an item. -/
def Items (lead : Bytes → α → Prop) : Bool → Bytes → List (α × Bytes) → Prop
  | true => Content lead
  | false => Rest lead

/-- What stands before an item: nothing, or the comma behind the item before. -/
def Before : Bool → Bytes → Prop
  | true, p => p = []
  | false, p => ∃ w, Blank w ∧ p = w ++ [','.toUInt8]

theorem items_nil {first : Bool} {s : Bytes} : Items lead first s [] ↔ Blank s := by
  cases first with
  | true => exact ⟨fun h => by cases h; assumption, .blank⟩
  | false => exact ⟨fun h => by cases h; assumption, .blank⟩

theorem items_cons {first : Bool} {s v : Bytes} {a : α} {items : List (α × Bytes)} :
    Items lead first s ((a, v) :: items) ↔ ∃ p k w t, Before first p ∧ lead k a ∧ Blank w ∧
      Rest lead t items ∧ s = p ++ (k ++ (w ++ (v ++ t))) := by
  constructor
  · intro h
    cases first with
    | true =>
      cases h with
      | items hk hw ht => exact ⟨[], _, _, _, rfl, hk, hw, ht, rfl⟩
    | false =>
      cases h with
      | more hw₀ hk hw ht => exact ⟨_, _, _, _, ⟨_, hw₀, rfl⟩, hk, hw, ht, by simp⟩
  · rintro ⟨p, k, w, t, hp, hk, hw, ht, rfl⟩
    cases first with
    | true => cases hp; exact .items hk hw ht
    | false =>
      obtain ⟨w₀, hw₀, rfl⟩ := hp
      rw [List.append_assoc]
      exact Rest.more hw₀ hk hw ht

/-- Behind an item nothing can be part of its value. -/
theorem Rest.ends {t : Bytes} {items : List (α × Bytes)} (h : Rest lead t items) {c : UInt8}
    (hc : c = ']'.toUInt8 ∨ c = '\x7d'.toUInt8) (r : Bytes) : Ends (t ++ c :: r) := by
  have starts : ∀ {w : Bytes} {b : UInt8} (u : Bytes), Blank w → Ends (b :: u) →
      Ends (w ++ b :: u) := by
    intro w b u hw hb
    cases w with
    | nil => exact hb
    | cons d w => exact .inl (hw d (by simp))
  cases h with
  | blank hw => exact starts _ hw (.inr (.inr hc))
  | more hw _ _ _ =>
    rw [List.append_assoc]
    exact starts _ hw (.inr (.inl rfl))

theorem Rest.length_le {t : Bytes} {items : List (α × Bytes)} (h : Rest lead t items) :
    items.length ≤ t.length := by
  induction h with
  | blank _ => simp
  | more _ _ _ _ ih => simp; omega

/-- Each item but the first has a comma before it. -/
theorem Items.length_le {first : Bool} {s : Bytes} {items : List (α × Bytes)}
    (h : Items lead first s items) : items.length ≤ s.length + 1 := by
  match items with
  | [] => simp
  | (a, v) :: items =>
    obtain ⟨p, k, w, t, _, _, _, ht, rfl⟩ := items_cons.mp h
    have := ht.length_le
    simp
    omega

theorem nextElement_eq_close {first : Bool} {s r : Bytes} :
    nextElement first s = .ok (.close r) ↔
      ∃ w t, Blank w ∧ r = ']'.toUInt8 :: t ∧ s = w ++ r := by
  unfold nextElement
  constructor
  · intro h
    split at h
    · cases h
    · rename_i b t hs
      obtain ⟨-, w, hw, hs⟩ := skipBlanks_eq_cons.mp hs
      split at h
      · rename_i hb
        cases h
        exact ⟨w, t, hw, by rw [hb], hs⟩
      · (repeat' split at h) <;> cases h
  · rintro ⟨w, t, hw, rfl, rfl⟩
    rw [skipBlanks_mark hw (by decide)]
    simp

@[simp] theorem nextElement_mark (first : Bool) (r : Bytes) :
    nextElement first (']'.toUInt8 :: r) = .ok (.close (']'.toUInt8 :: r)) := rfl

theorem nextElement_eq_item {first : Bool} {s r : Bytes} :
    nextElement first s = .ok (.item r) ↔
      Opens r ∧ ∃ p w, Before first p ∧ Blank w ∧ s = p ++ (w ++ r) := by
  constructor
  · intro h
    unfold nextElement at h
    split at h
    · cases h
    · rename_i b t hs
      obtain ⟨hb, w, hw, rfl⟩ := skipBlanks_eq_cons.mp hs
      split at h
      · cases h
      · rename_i hb'
        cases first with
        | true => cases h; exact ⟨⟨hb, hb'⟩, [], w, rfl, hw, rfl⟩
        | false =>
          simp only [Bool.false_eq_true, if_false] at h
          split at h
          · rename_i hc
            split at h
            · cases h
            · rename_i d u ht
              obtain ⟨hd, w', hw', rfl⟩ := skipBlanks_eq_cons.mp ht
              split at h
              · cases h
              · rename_i hd'
                cases h
                exact ⟨⟨hd, hd'⟩, _, w', ⟨w, hw, rfl⟩, hw', by simp [hc]⟩
          · cases h
  · rintro ⟨hr, p, w, hp, hw, rfl⟩
    match r, hr with
    | b :: t, ⟨hb, hb'⟩ =>
      cases first with
      | true => cases hp; simp [nextElement, skipBlanks_mark hw hb, hb']
      | false =>
        obtain ⟨w₀, hw₀, rfl⟩ := hp
        rw [List.append_assoc]
        have comma : isBlank ','.toUInt8 = false := by decide
        have other : ','.toUInt8 ≠ ']'.toUInt8 := by decide
        simp [nextElement, skipBlanks_mark hw₀ comma, skipBlanks_mark hw hb, hb', other]

/-- An element that is read stands before the rest of the list. -/
theorem Exact.element_sound {f : Scanner β} {P : Bytes → β → Prop} (hf : Exact f P)
    {first : Bool} {s r t : Bytes} {x : β} (hn : nextElement first s = .ok (.item r))
    (hr : f r = .ok (x, t)) :
    ∃ k v, P v x ∧ s = k ++ t ∧ ∀ {c items}, Rest elementLead c items →
      Items elementLead first (k ++ c) (((), v) :: items) := by
  obtain ⟨-, p, w, hp, hw, rfl⟩ := nextElement_eq_item.mp hn
  obtain ⟨w', v, hw', hv, rfl⟩ := hf.sound hr
  refine ⟨p ++ (w ++ (w' ++ v)), v, hv, by simp, fun hc => ?_⟩
  exact items_cons.mpr ⟨p, [], w ++ w', _, hp, rfl, hw.append hw', hc, by simp⟩

theorem Exact.element_complete {f : Scanner β} {P : Bytes → β → Prop} (hf : Exact f P)
    {first : Bool} {c v : Bytes} {x : β} {items : List (Unit × Bytes)}
    (h : Items elementLead first c (((), v) :: items)) (hv : P v x) (t : Bytes) :
    ∃ r c', nextElement first (c ++ ']'.toUInt8 :: t) = .ok (.item r) ∧
      f r = .ok (x, c' ++ ']'.toUInt8 :: t) ∧ Items elementLead false c' items := by
  obtain ⟨p, _, w, c', hp, rfl, hw, hc, rfl⟩ := items_cons.mp h
  have ho : Opens (v ++ (c' ++ ']'.toUInt8 :: t)) := by
    match v, hf.opens hv with
    | b :: v, ho => exact ho
  refine ⟨v ++ (c' ++ ']'.toUInt8 :: t), c', ?_, ?_, hc⟩
  · exact nextElement_eq_item.mpr ⟨ho, p, w, hp, hw, by simp⟩
  · exact hf.complete blank_nil hv (hc.ends (.inl rfl) t)

theorem nextMember_eq_close {first : Bool} {s r : Bytes} :
    nextMember first s = .ok (.close r) ↔
      ∃ w t, Blank w ∧ r = '\x7d'.toUInt8 :: t ∧ s = w ++ r := by
  unfold nextMember
  constructor
  · intro h
    split at h
    · cases h
    · rename_i b t hs
      obtain ⟨-, w, hw, hs⟩ := skipBlanks_eq_cons.mp hs
      split at h
      · rename_i hb
        cases h
        exact ⟨w, t, hw, by rw [hb], hs⟩
      · (repeat' split at h) <;> cases h
  · rintro ⟨w, t, hw, rfl, rfl⟩
    rw [skipBlanks_mark hw (by decide)]
    simp

theorem nextMember_eq_item {first : Bool} {s r : Bytes} :
    nextMember first s = .ok (.item r) ↔
      ∃ p w, Before first p ∧ Blank w ∧ s = p ++ (w ++ '"'.toUInt8 :: r) := by
  constructor
  · intro h
    unfold nextMember at h
    split at h
    · cases h
    · rename_i b t hs
      obtain ⟨hb, w, hw, rfl⟩ := skipBlanks_eq_cons.mp hs
      split at h
      · cases h
      · cases first with
        | true =>
          simp only [if_true] at h
          split at h
          · rename_i hq; cases h; exact ⟨[], w, rfl, hw, by simp [hq]⟩
          · cases h
        | false =>
          simp only [Bool.false_eq_true, if_false] at h
          split at h
          · rename_i hc
            split at h
            · cases h
            · rename_i d u ht
              obtain ⟨hd, w', hw', rfl⟩ := skipBlanks_eq_cons.mp ht
              split at h
              · rename_i hq
                cases h
                exact ⟨_, w', ⟨w, hw, rfl⟩, hw', by simp [hc, hq]⟩
              · split at h <;> cases h
          · cases h
  · rintro ⟨p, w, hp, hw, rfl⟩
    have quote : isBlank '"'.toUInt8 = false := by decide
    cases first with
    | true =>
      cases hp
      have other : '"'.toUInt8 ≠ '\x7d'.toUInt8 := by decide
      simp [nextMember, skipBlanks_mark hw quote, other]
    | false =>
      obtain ⟨w₀, hw₀, rfl⟩ := hp
      rw [List.append_assoc]
      have comma : isBlank ','.toUInt8 = false := by decide
      have other : ','.toUInt8 ≠ '\x7d'.toUInt8 := by decide
      simp [nextMember, skipBlanks_mark hw₀ comma, skipBlanks_mark hw quote, other]

end Items

end Heartbeat.Json
