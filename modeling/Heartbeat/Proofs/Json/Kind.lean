import Heartbeat.Proofs.Json.Skip

/-!
# Heartbeat.Proofs.Json.Kind

The reader of each kind reads what is written for that kind (`Kind.exact`).
-/

namespace Heartbeat.Json

theorem readFlag_exact : Exact readFlag fun v b => v = flagWord b where
  sound {s r x} h := by
    unfold readFlag at h
    split at h
    · cases h
    · rename_i b t hs
      obtain ⟨-, w, hw, rfl⟩ := skipBlanks_eq_cons.mp hs
      have word {u : Bytes} {y : Bool} (hu : b :: u = flagWord y)
          (h : (expectWord u t).map (y, ·) = .ok (x, r)) :
          ∃ w' v, Blank w' ∧ v = flagWord x ∧ w ++ b :: t = w' ++ (v ++ r) := by
        obtain ⟨_, ht, hx⟩ := except_map_eq_ok.mp h
        cases hx
        exact ⟨w, _, hw, rfl, by simp [expectWord_eq_ok.mp ht, ← hu]⟩
      split at h
      · rename_i hb; subst hb; exact word rfl h
      · split at h
        · rename_i hb; subst hb; exact word rfl h
        · cases h
  complete {w v r x} hw hv hr := by
    subst hv
    cases x with
    | true =>
      simp only [readFlag, flagWord, List.cons_append, skipBlanks_mark hw (b := 't'.toUInt8)
        (by decide), if_true, expectWord_eq_ok.mpr (rfl : rueWord ++ r = rueWord ++ r)]
      rfl
    | false =>
      have : 'f'.toUInt8 ≠ 't'.toUInt8 := by decide
      simp only [readFlag, flagWord, List.cons_append, skipBlanks_mark hw (b := 'f'.toUInt8)
        (by decide), this, if_false, if_true,
        expectWord_eq_ok.mpr (rfl : alseWord ++ r = alseWord ++ r)]
      rfl
  opens {v x} hv := by subst hv; cases x <;> exact ⟨by decide, by decide⟩

theorem readText_exact : Exact readText TextSpells where
  sound {s r x} h := by
    unfold readText at h
    split at h
    · cases h
    · rename_i b t hs
      obtain ⟨-, w, hw, rfl⟩ := skipBlanks_eq_cons.mp hs
      split at h
      · rename_i hb
        obtain ⟨q, rfl, hq⟩ := scanText_eq_ok.mp h
        exact ⟨w, _, hw, ⟨q, rfl, hq⟩, by simp [hb]⟩
      · cases h
  complete {w v r x} hw hv hr := by
    obtain ⟨q, rfl, hq⟩ := hv
    have ht : scanText (q ++ '"'.toUInt8 :: r) = .ok (x, r) := scanText_eq_ok.mpr ⟨q, rfl, hq⟩
    simp [readText, skipBlanks_mark hw (b := '"'.toUInt8) (by decide), ht]
  opens := by
    rintro v x ⟨q, rfl, -⟩
    exact ⟨by decide, by decide⟩

theorem readNote_exact : Exact readNote NoteSpells where
  sound {s r x} h := by
    unfold readNote at h
    split at h
    · cases h
    · rename_i b t hs
      obtain ⟨-, w, hw, rfl⟩ := skipBlanks_eq_cons.mp hs
      split at h
      · rename_i hb
        obtain ⟨_, ht, hx⟩ := except_map_eq_ok.mp h
        cases hx
        exact ⟨w, nullWord, hw, rfl, by simp [nullWord, hb, expectWord_eq_ok.mp ht]⟩
      · obtain ⟨⟨y, _⟩, ht, hx⟩ := except_map_eq_ok.mp h
        cases hx
        obtain ⟨w', v, hw', hv, hs⟩ := readText_exact.sound ht
        exact ⟨w ++ w', v, hw.append hw', hv, by rw [hs, List.append_assoc]⟩
  complete {w v r x} hw hv hr := by
    cases x with
    | none =>
      cases hv
      simp only [readNote, nullWord, List.cons_append, skipBlanks_mark hw (b := 'n'.toUInt8)
        (by decide), if_true, expectWord_eq_ok.mpr (rfl : ullWord ++ r = ullWord ++ r)]
      rfl
    | some t =>
      have ht := readText_exact.complete blank_nil hv hr
      obtain ⟨q, rfl, hq⟩ := hv
      have : '"'.toUInt8 ≠ 'n'.toUInt8 := by decide
      simp only [List.nil_append, List.cons_append] at ht ⊢
      simp only [readNote, skipBlanks_mark hw (b := '"'.toUInt8) (by decide), this, if_false, ht]
      rfl
  opens {v x} hv := by
    cases x with
    | none => cases hv; exact ⟨by decide, by decide⟩
    | some t => exact readText_exact.opens hv

theorem WordSpells.opens {limit n : Nat} {v : Bytes} (h : WordSpells limit v n) : Opens v := by
  obtain ⟨d, t, rfl, hd⟩ := h.1.head
  exact opens_of_isDigit hd t

theorem readWord_exact (expected : String) {limit : Nat} (hl : limit ≤ significandLimit) :
    Exact (readWord expected limit) (WordSpells limit) where
  sound {s r n} h := by
    simp only [readWord] at h
    split at h
    · cases h
    · rename_i b t hs
      obtain ⟨-, w, hw, rfl⟩ := skipBlanks_eq_cons.mp hs
      have natural {negative : Bool} {u : Bytes} (hu : scanNumber negative u = .ok (.natural n, r))
          (hlt : n < limit) : u = b :: t →
          ∃ w' v, Blank w' ∧ WordSpells limit v n ∧ w ++ b :: t = w' ++ (v ++ r) := by
        intro hbt
        obtain ⟨-, v, hi, hv, hur⟩ := scanNumber_natural hu
        exact ⟨w, v, hw, ⟨hi, hv, hlt⟩, by rw [← hbt, hur]⟩
      split at h
      · split at h
        · cases h
        · rename_i hu
          cases (scanNumber_natural hu).1
        · cases h
        · cases h
      · split at h
        · split at h
          · cases h
          · rename_i hu
            split at h
            · rename_i hlt; cases h; exact natural hu hlt rfl
            · cases h
          · cases h
          · cases h
        · cases h
  complete {w v r n} hw hv hr := by
    obtain ⟨hi, rfl, hn⟩ := hv
    have hs := scanNumber_append hi (by omega) hr
    obtain ⟨d, t, rfl, hd⟩ := hi.head
    have minus : d ≠ '-'.toUInt8 := by rintro rfl; revert hd; decide
    simp only [List.cons_append] at hs ⊢
    simp only [readWord, skipBlanks_mark hw (opens_of_isDigit hd t).1, minus, if_false, hd,
      if_true, hs, hn]
  opens hv := hv.opens

theorem Exact.map {α β : Type} {f : Scanner α} {P : Bytes → α → Prop} {Q : Bytes → β → Prop}
    (hf : Exact f P) (g : α → β) (hQ : ∀ v y, Q v y ↔ ∃ x, P v x ∧ g x = y) :
    Exact (fun s => (f s).map fun (x, r) => (g x, r)) Q where
  sound h := by
    obtain ⟨⟨x, r⟩, h, hy⟩ := except_map_eq_ok.mp h
    cases hy
    obtain ⟨w, v, hw, hv, hs⟩ := hf.sound h
    exact ⟨w, v, hw, (hQ _ _).mpr ⟨x, hv, rfl⟩, hs⟩
  complete hw hv hr := by
    obtain ⟨x, hx, rfl⟩ := (hQ _ _).mp hv
    rw [hf.complete hw hx hr]
    rfl
  opens hv := by
    obtain ⟨x, hv, -⟩ := (hQ _ _).mp hv
    exact hf.opens hv

theorem readWord16_exact : Exact readWord16 fun v n => WordSpells UInt16.size v n.toNat :=
  (readWord_exact "u16" (by decide)).map UInt16.ofNat fun v n =>
    ⟨fun h => ⟨_, h, UInt16.ofNat_toNat⟩, by
      rintro ⟨m, h, rfl⟩
      rwa [UInt16.toNat_ofNat_of_lt' h.2.2]⟩

theorem readWord32_exact : Exact readWord32 (Kind.Spells .word32) :=
  (readWord_exact "u32" (by decide)).map UInt32.ofNat fun v n =>
    ⟨fun h => ⟨_, h, UInt32.ofNat_toNat⟩, by
      rintro ⟨m, h, rfl⟩
      rw [Kind.Spells, UInt32.toNat_ofNat_of_lt' h.2.2]
      exact h⟩

theorem readWord64_exact : Exact readWord64 (Kind.Spells .word64) :=
  (readWord_exact "u64" (by decide)).map UInt64.ofNat fun v n =>
    ⟨fun h => ⟨_, h, UInt64.ofNat_toNat⟩, by
      rintro ⟨m, h, rfl⟩
      rw [Kind.Spells, UInt64.toNat_ofNat_of_lt' h.2.2]
      exact h⟩

/-! ## Lists of words -/

theorem readWordsFrom_sound {fuel : Nat} {first : Bool} {gained ns : List UInt16} {s r : Bytes}
    (h : readWordsFrom fuel first gained s = .ok (ns, r)) :
    ∃ c items xs t, Items elementLead first c items ∧
      (items.map (·.2)).Forall₂ (fun v n => WordSpells UInt16.size v n.toNat) xs ∧
      ns = gained.reverse ++ xs ∧ r = ']'.toUInt8 :: t ∧ s = c ++ r := by
  induction fuel generalizing first gained s with
  | zero => cases h
  | succ fuel ih =>
    simp only [readWordsFrom] at h
    split at h
    · cases h
    · rename_i u hn
      cases h
      obtain ⟨w, t, hw, rfl, rfl⟩ := nextElement_eq_close.mp hn
      exact ⟨w, [], [], t, items_nil.mpr hw, .nil, by simp, rfl, rfl⟩
    · rename_i u hn
      split at h
      · cases h
      · rename_i n t hw
        obtain ⟨k, v, hv, rfl, item⟩ := readWord16_exact.element_sound hn hw
        obtain ⟨c, items, xs, t, hc, hxs, rfl, rfl, rfl⟩ := ih h
        exact ⟨k ++ c, _, n :: xs, t, item hc, .cons hv hxs, by simp, rfl, by simp⟩

theorem readWordsFrom_complete {fuel : Nat} {first : Bool} {gained xs : List UInt16} {c : Bytes}
    {items : List (Unit × Bytes)} (hc : Items elementLead first c items)
    (hxs : (items.map (·.2)).Forall₂ (fun v n => WordSpells UInt16.size v n.toNat) xs)
    (hf : items.length < fuel) (t : Bytes) :
    readWordsFrom fuel first gained (c ++ ']'.toUInt8 :: t) =
      .ok (gained.reverse ++ xs, ']'.toUInt8 :: t) := by
  induction fuel generalizing first gained xs c items with
  | zero => omega
  | succ fuel ih =>
    match items, xs, hxs with
    | [], _, .nil =>
      have hn : nextElement first (c ++ ']'.toUInt8 :: t) = .ok (.close (']'.toUInt8 :: t)) :=
        nextElement_eq_close.mpr ⟨c, t, items_nil.mp hc, rfl, rfl⟩
      simp [readWordsFrom, hn]
    | ((), v) :: items, x :: xs, .cons hx hxs =>
      obtain ⟨r, c', hn, hr, hc'⟩ := readWord16_exact.element_complete hc hx t
      have hrest := @ih false (x :: gained) xs c' items hc' hxs (by simpa using hf)
      simp [readWordsFrom, hn, hr, hrest]

theorem readWords16_exact : Exact readWords16 (Kind.Spells .words16) where
  sound {s r ns} h := by
    unfold readWords16 at h
    split at h
    · cases h
    · rename_i b t hs
      obtain ⟨-, w, hw, rfl⟩ := skipBlanks_eq_cons.mp hs
      split at h
      · rename_i hb
        split at h
        · cases h
        · rename_i xs u hx
          obtain ⟨c, items, ns, x, hc, hns, rfl, rfl, rfl⟩ := readWordsFrom_sound hx
          rw [closeList_mark] at h
          cases h
          exact ⟨w, _, hw, ⟨c, items, rfl, hc, hns⟩, by simp [hb]⟩
      · cases h
  complete {w v r ns} hw hv hr := by
    obtain ⟨c, items, rfl, hc, hns⟩ := hv
    have hc : Items elementLead true c items := hc
    have few := hc.length_le
    have enough : items.length < (c ++ ']'.toUInt8 :: r).length + 1 := by simp; omega
    have read := @readWordsFrom_complete _ true [] ns c items hc hns enough r
    simp only [List.cons_append, List.append_assoc, List.nil_append]
    simp only [readWords16, skipBlanks_mark hw (b := '['.toUInt8) (by decide), if_true, read,
      closeList_mark]
    rfl
  opens := by
    rintro v ns ⟨c, items, rfl, -⟩
    exact ⟨by decide, by decide⟩

/-- Every kind is read as it is written. -/
theorem Kind.exact : (k : Kind) → Exact k.read k.Spells
  | .flag => readFlag_exact
  | .text => readText_exact
  | .note => readNote_exact
  | .word32 => readWord32_exact
  | .word64 => readWord64_exact
  | .words16 => readWords16_exact

end Heartbeat.Json
