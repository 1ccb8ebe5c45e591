import Heartbeat.Proofs.Json.Scan

/-!
# Heartbeat.Proofs.Json.Text

The scanners of a string read what the grammar spells.

A mode stands for the escape that was begun, so each proof carries the bytes of it: `Pending` says
which bytes those can be. A step either lengthens them or completes them.
-/

namespace Heartbeat.Json

/-! ## Reading -/

/-- The bytes of an escape that lead to a mode. -/
inductive Pending : TextMode → Bytes → Prop where
  | plain : Pending .plain []
  | escape : Pending .escape ['\\'.toUInt8]
  | digits {seen : List UInt8} :
      seen.length < 4 →
      Pending (.digits none seen) ('\\'.toUInt8 :: 'u'.toUInt8 :: seen.reverse)
  | partner {digits : Bytes} {high : Nat} :
      CodeUnit digits high → isHighSurrogate high = true →
      Pending (.partner high) ('\\'.toUInt8 :: 'u'.toUInt8 :: digits)
  | partnerEscape {digits : Bytes} {high : Nat} :
      CodeUnit digits high → isHighSurrogate high = true →
      Pending (.partnerEscape high)
        ('\\'.toUInt8 :: 'u'.toUInt8 :: (digits ++ ['\\'.toUInt8]))
  | partnerDigits {digits : Bytes} {high : Nat} {seen : List UInt8} :
      CodeUnit digits high → isHighSurrogate high = true → seen.length < 4 →
      Pending (.digits (some high) seen)
        ('\\'.toUInt8 :: 'u'.toUInt8 :: (digits ++ '\\'.toUInt8 :: 'u'.toUInt8 :: seen.reverse))

theorem CodeUnit.of_reverse {seen : List UInt8} {n : Nat} (hl : seen.length = 4)
    (hn : hexNumber? seen = some n) : CodeUnit seen.reverse n :=
  ⟨by simpa using hl, by simpa using hn⟩

theorem Pending.alone {seen : List UInt8} {m : TextMode} {more : Bytes} (hl : seen.length = 4)
    (h : endDigits none seen = .ok (m, more)) :
    ∃ p, Pending m p ∧ ∀ q x, Spells (p ++ q) x →
      Spells ('\\'.toUInt8 :: 'u'.toUInt8 :: (seen.reverse ++ q)) (more ++ x) := by
  cases hn : hexNumber? seen with
  | none => simp [endDigits, hn] at h
  | some n =>
    have hd := CodeUnit.of_reverse hl hn
    simp only [endDigits, hn] at h
    split at h
    · cases h
    · rename_i hlow
      split at h
      · -- a high surrogate spells nothing until its partner has come
        rename_i hhigh
        cases h
        exact ⟨_, .partner hd hhigh, fun q x hq => by simpa using hq⟩
      · rename_i hhigh
        cases h
        refine ⟨_, .plain, fun q x hq => ?_⟩
        exact .code hd (by simpa using hhigh) (by simpa using hlow) hq

theorem Pending.paired {digits : Bytes} {high : Nat} {seen : List UInt8} {m : TextMode}
    {more : Bytes} (hd : CodeUnit digits high) (hh : isHighSurrogate high = true)
    (hl : seen.length = 4) (h : endDigits (some high) seen = .ok (m, more)) :
    ∃ p, Pending m p ∧ ∀ q x, Spells (p ++ q) x →
      Spells ('\\'.toUInt8 :: 'u'.toUInt8 ::
        (digits ++ '\\'.toUInt8 :: 'u'.toUInt8 :: (seen.reverse ++ q))) (more ++ x) := by
  cases hn : hexNumber? seen with
  | none => simp [endDigits, hn] at h
  | some n =>
    simp only [endDigits, hn] at h
    split at h
    · rename_i hlow
      cases h
      exact ⟨_, .plain, fun q x hq => .pair hd hh (CodeUnit.of_reverse hl hn) hlow hq⟩
    · cases h

/-- What a step makes of the escape begun: whatever is spelled from there on is spelled with the
byte of the step before it. -/
theorem Pending.step {m m' : TextMode} {p more : Bytes} {b : UInt8} (hp : Pending m p)
    (hb : m.isPlain = true → b ≠ '"'.toUInt8) (h : m.step b = .ok (m', more)) :
    ∃ p', Pending m' p' ∧ ∀ q x, Spells (p' ++ q) x → Spells (p ++ b :: q) (more ++ x) := by
  cases hp with
  | plain =>
    simp only [TextMode.step] at h
    split at h
    · rename_i hs; cases h; exact ⟨_, .escape, fun q x hq => by simpa [hs] using hq⟩
    · split at h
      · cases h
      · rename_i hs hc
        cases h
        exact ⟨_, .plain, fun q x hq => .plain (by simpa using hc) (hb rfl) hs hq⟩
  | escape =>
    simp only [TextMode.step] at h
    split at h
    · rename_i e he; cases h; exact ⟨_, .plain, fun q x hq => .short he hq⟩
    · split at h
      · rename_i hu; cases h; exact ⟨_, .digits (by simp), fun q x hq => by simpa [hu] using hq⟩
      · cases h
  | @digits seen hl =>
    simp only [TextMode.step] at h
    split at h
    · rename_i hs
      cases h
      exact ⟨_, .digits (by simpa using Nat.succ_lt_succ hs), fun q x hq => by simpa using hq⟩
    · obtain ⟨p, hp, spells⟩ := Pending.alone (by simp; omega) h
      exact ⟨p, hp, fun q x hq => by simpa using spells q x hq⟩
  | @partner digits high hd hh =>
    simp only [TextMode.step] at h
    split at h
    · rename_i hs; cases h; exact ⟨_, .partnerEscape hd hh, fun q x hq => by simpa [hs] using hq⟩
    · cases h
  | @partnerEscape digits high hd hh =>
    simp only [TextMode.step] at h
    split at h
    · rename_i hu
      cases h
      exact ⟨_, .partnerDigits hd hh (by simp), fun q x hq => by simpa [hu] using hq⟩
    · cases h
  | @partnerDigits digits high seen hd hh hl =>
    simp only [TextMode.step] at h
    split at h
    · rename_i hs
      cases h
      exact ⟨_, .partnerDigits hd hh (by simpa using Nat.succ_lt_succ hs),
        fun q x hq => by simpa using hq⟩
    · obtain ⟨p, hp, spells⟩ := Pending.paired hd hh (by simp; omega) h
      exact ⟨p, hp, fun q x hq => by simpa using spells q x hq⟩

theorem scanTextBytes_sound {s r b : Bytes} {m : TextMode} {gained p : Bytes} (hp : Pending m p)
    (h : scanTextBytes m gained s = .ok (b, r)) :
    ∃ q x, s = q ++ '"'.toUInt8 :: r ∧ b = gained.reverse ++ x ∧ Spells (p ++ q) x := by
  induction s generalizing m gained p with
  | nil => cases h
  | cons c s ih =>
    unfold scanTextBytes at h
    split at h
    · rename_i hc
      obtain ⟨hm, rfl⟩ := hc
      cases h
      cases hp with
      | plain => exact ⟨[], [], rfl, by simp, .nil⟩
      | _ => cases hm
    · rename_i hc
      split at h
      · rename_i m' more hstep
        obtain ⟨p', hp', spells⟩ := hp.step (fun hm hq => hc ⟨hm, hq⟩) hstep
        obtain ⟨q, x, rfl, rfl, hq⟩ := ih hp' h
        exact ⟨c :: q, more ++ x, rfl, by simp, spells q x hq⟩
      · cases h

theorem scanTextBytes_digits {digits more : Bytes} {high : Option Nat} {m : TextMode}
    (hl : digits.length = 4) (h : endDigits high digits.reverse = .ok (m, more))
    (gained s : Bytes) :
    scanTextBytes (.digits high []) gained (digits ++ s) =
      scanTextBytes m (more.reverse ++ gained) s := by
  match digits, hl with
  | [a, b, c, d], _ =>
    have h : endDigits high [d, c, b, a] = .ok (m, more) := h
    simp [scanTextBytes, TextMode.step, TextMode.isPlain, h]

theorem scanTextBytes_escape (gained s : Bytes) :
    scanTextBytes .plain gained ('\\'.toUInt8 :: 'u'.toUInt8 :: s) =
      scanTextBytes (.digits none []) gained s := by
  have hu : shortEscape? 'u'.toUInt8 = none := by decide
  have hq : '\\'.toUInt8 ≠ '"'.toUInt8 := by decide
  simp [scanTextBytes, TextMode.step, TextMode.isPlain, hu, hq]

theorem scanTextBytes_append {q x : Bytes} (h : Spells q x) (gained s : Bytes) :
    scanTextBytes .plain gained (q ++ s) = scanTextBytes .plain (x.reverse ++ gained) s := by
  induction h generalizing gained with
  | nil => rfl
  | @plain b q x hc hq he _ ih =>
    simp [scanTextBytes, TextMode.step, hq, he, UInt8.not_lt.mpr hc, ih]
  | @short b e q x he _ ih =>
    have hq : '\\'.toUInt8 ≠ '"'.toUInt8 := by decide
    simp [scanTextBytes, TextMode.step, TextMode.isPlain, hq, he, ih]
  | @code digits q x n hd hh hl _ ih =>
    have hend : endDigits none digits.reverse =
        .ok (.plain, String.utf8EncodeChar (Char.ofNat n)) := by
      simp [endDigits, hd.2, hh, hl]
    simp [scanTextBytes_escape, scanTextBytes_digits hd.1 hend, ih]
  | @pair digits digits' q x high low hd hh hd' hl _ ih =>
    have hlow : isLowSurrogate high = false := by
      simp only [isHighSurrogate, isLowSurrogate, Bool.and_eq_true, decide_eq_true_eq,
        Bool.and_eq_false_iff, decide_eq_false_iff_not] at hh ⊢
      omega
    have hend : endDigits none digits.reverse = .ok (.partner high, []) := by
      simp [endDigits, hd.2, hh, hlow]
    have hend' : endDigits (some high) digits'.reverse =
        .ok (.plain, String.utf8EncodeChar (Char.ofNat (joinSurrogates high low))) := by
      simp [endDigits, hd'.2, hl]
    have between (g t : Bytes) : scanTextBytes (.partner high) g
        ('\\'.toUInt8 :: 'u'.toUInt8 :: t) = scanTextBytes (.digits (some high) []) g t := by
      simp [scanTextBytes, TextMode.step, TextMode.isPlain]
    simp [scanTextBytes_escape, scanTextBytes_digits hd.1 hend, between,
      scanTextBytes_digits hd'.1 hend', ih]

theorem scanText_eq_ok {s r : Bytes} {t : String} :
    scanText s = .ok (t, r) ↔ ∃ q, s = q ++ '"'.toUInt8 :: r ∧ Spells q (utf8 t) := by
  unfold scanText
  constructor
  · intro h
    split at h
    · cases h
    · rename_i b r' hb
      split at h
      · rename_i t' ht
        cases h
        obtain ⟨q, x, hs, rfl, hq⟩ := scanTextBytes_sound .plain hb
        exact ⟨q, hs, by simpa [ofUtf8?_eq_some_iff.mp ht] using hq⟩
      · cases h
  · rintro ⟨q, rfl, hq⟩
    have : scanTextBytes .plain [] (q ++ '"'.toUInt8 :: r) = .ok (utf8 t, r) := by
      simp [scanTextBytes_append hq, scanTextBytes, TextMode.isPlain]
    simp [this, ofUtf8?_utf8]

/-! ## Passing over -/

inductive Begun : SkipMode → Bytes → Prop where
  | plain : Begun .plain []
  | escape : Begun .escape ['\\'.toUInt8]
  | digits {seen : List UInt8} :
      seen.length < 4 →
      Begun (.digits seen) ('\\'.toUInt8 :: 'u'.toUInt8 :: seen.reverse)

theorem Begun.step {m m' : SkipMode} {p : Bytes} {b : UInt8} (hp : Begun m p)
    (hb : m.isPlain = true → b ≠ '"'.toUInt8 ∧ 0x20 ≤ b) (h : m.step b = .ok m') :
    ∃ p', Begun m' p' ∧ ∀ q, Chars (p' ++ q) → Chars (p ++ b :: q) := by
  cases hp with
  | plain =>
    obtain ⟨hq, hc⟩ := hb rfl
    simp only [SkipMode.step] at h
    split at h
    · rename_i hs; cases h; exact ⟨_, .escape, fun q hq => by simpa [hs] using hq⟩
    · rename_i hs; cases h; exact ⟨_, .plain, fun q h => .plain hc hq hs h⟩
  | escape =>
    simp only [SkipMode.step] at h
    split at h
    · rename_i he
      cases h
      obtain ⟨e, he⟩ := Option.isSome_iff_exists.mp he
      exact ⟨_, .plain, fun q hq => .short he hq⟩
    · split at h
      · rename_i hu; cases h; exact ⟨_, .digits (by simp), fun q hq => by simpa [hu] using hq⟩
      · cases h
  | @digits seen hl =>
    simp only [SkipMode.step] at h
    split at h
    · rename_i hs
      cases h
      exact ⟨_, .digits (by simpa using Nat.succ_lt_succ hs), fun q hq => by simpa using hq⟩
    · have hl' : (b :: seen).length = 4 := by simp; omega
      split at h
      · rename_i hn
        cases h
        obtain ⟨n, hn⟩ := Option.isSome_iff_exists.mp hn
        refine ⟨_, .plain, fun q hq => ?_⟩
        simpa using Chars.code (CodeUnit.of_reverse hl' hn) hq
      · cases h

theorem skipTextFrom_sound {s r : Bytes} {m : SkipMode} {p : Bytes} (hp : Begun m p)
    (h : skipTextFrom m s = .ok r) : ∃ q, s = q ++ '"'.toUInt8 :: r ∧ Chars (p ++ q) := by
  induction s generalizing m p with
  | nil => cases h
  | cons c s ih =>
    unfold skipTextFrom at h
    split at h
    · rename_i hc
      obtain ⟨hm, rfl⟩ := hc
      cases h
      cases hp with
      | plain => exact ⟨[], rfl, .nil⟩
      | _ => cases hm
    · rename_i hq
      split at h
      · cases h
      · rename_i hc
        split at h
        · rename_i m' hstep
          obtain ⟨p', hp', chars⟩ := hp.step
            (fun hm => ⟨fun h => hq ⟨hm, h⟩, UInt8.not_lt.mp fun h => hc ⟨hm, h⟩⟩) hstep
          obtain ⟨q, rfl, hq⟩ := ih hp' h
          exact ⟨c :: q, rfl, chars q hq⟩
        · cases h

theorem skipTextFrom_append {q : Bytes} (h : Chars q) (s : Bytes) :
    skipTextFrom .plain (q ++ s) = skipTextFrom .plain s := by
  have hq : '\\'.toUInt8 ≠ '"'.toUInt8 := by decide
  have hc : ¬ '\\'.toUInt8 < 0x20 := by decide
  induction h with
  | nil => rfl
  | @plain b q hc hq he _ ih =>
    simp [skipTextFrom, SkipMode.step, hq, he, UInt8.not_lt.mpr hc, ih]
  | @short b e q he _ ih =>
    simp [skipTextFrom, SkipMode.step, SkipMode.isPlain, hq, hc, he, ih]
  | @code digits q n hd _ ih =>
    obtain ⟨hl, hn⟩ := hd
    have hu : shortEscape? 'u'.toUInt8 = none := by decide
    match digits, hl with
    | [a, b, c, d], _ =>
      simp [skipTextFrom, SkipMode.step, SkipMode.isPlain, hq, hc, hu] at hn ⊢
      simp [hn, ih]

theorem skipText_eq_ok {s r : Bytes} :
    skipText s = .ok r ↔ ∃ q, s = q ++ '"'.toUInt8 :: r ∧ Chars q := by
  constructor
  · exact skipTextFrom_sound .plain
  · rintro ⟨q, rfl, hq⟩
    simp [skipText, skipTextFrom_append hq, skipTextFrom, SkipMode.isPlain]

end Heartbeat.Json
