import Heartbeat.Json.Scan

/-!
# Heartbeat.Json.Text

The inside of a JSON string, from behind its opening quote.

* `scanText` — reads it: escapes are resolved, surrogates must come in pairs, and the result must
  be UTF-8.
* `skipText` — passes over it: escapes need only their form.

Both work byte by byte with a mode that says what the bytes just read have promised.
-/

namespace Heartbeat.Json

/-- The byte that a one-letter escape stands for. -/
def shortEscape? (b : UInt8) : Option UInt8 :=
  if b = '"'.toUInt8 ∨ b = '\\'.toUInt8 ∨ b = '/'.toUInt8 then some b
  else if b = 'b'.toUInt8 then some 0x08
  else if b = 'f'.toUInt8 then some 0x0c
  else if b = 'n'.toUInt8 then some 0x0a
  else if b = 'r'.toUInt8 then some 0x0d
  else if b = 't'.toUInt8 then some 0x09
  else none

/-- The value of hexadecimal digits, the last one first. -/
def hexNumber? : List UInt8 → Option Nat
  | [] => some 0
  | d :: ds => do return (← hexNumber? ds) * 16 + (← hexValue? d)

def isHighSurrogate (n : Nat) : Bool := 0xd800 ≤ n && n < 0xdc00

def isLowSurrogate (n : Nat) : Bool := 0xdc00 ≤ n && n < 0xe000

/-- The code point that two surrogates spell. -/
def joinSurrogates (high low : Nat) : Nat :=
  0x10000 + (high - 0xd800) * 0x400 + (low - 0xdc00)

inductive TextMode where
  | plain
  /-- Behind a backslash. -/
  | escape
  /-- Among the four digits of an escape; the last digit read comes first. -/
  | digits (high : Option Nat) (seen : List UInt8)
  /-- Behind a high surrogate, whose partner must follow. -/
  | partner (high : Nat)
  /-- Behind a high surrogate and a backslash. -/
  | partnerEscape (high : Nat)

def TextMode.isPlain : TextMode → Bool
  | .plain => true
  | _ => false

/-- What four hexadecimal digits mean, given the high surrogate before them. -/
def endDigits (high : Option Nat) (digits : List UInt8) : Except Cause (TextMode × Bytes) :=
  match hexNumber? digits, high with
  | none, _ => .error .escapeBroken
  | some n, none =>
    if isLowSurrogate n then .error .surrogateAlone
    else if isHighSurrogate n then .ok (.partner n, [])
    else .ok (.plain, String.utf8EncodeChar (Char.ofNat n))
  | some n, some high =>
    if isLowSurrogate n then
      .ok (.plain, String.utf8EncodeChar (Char.ofNat (joinSurrogates high n)))
    else .error .surrogateAlone

/-- The mode after one more byte, which is not a closing quote in plain mode, and the bytes that
the text gains. -/
def TextMode.step (m : TextMode) (b : UInt8) : Except Cause (TextMode × Bytes) :=
  match m with
  | .plain =>
    if b = '\\'.toUInt8 then .ok (.escape, [])
    else if b < 0x20 then .error .controlInText
    else .ok (.plain, [b])
  | .escape =>
    match shortEscape? b with
    | some e => .ok (.plain, [e])
    | none => if b = 'u'.toUInt8 then .ok (.digits none [], []) else .error .escapeBroken
  | .digits high seen =>
    if seen.length < 3 then .ok (.digits high (b :: seen), []) else endDigits high (b :: seen)
  | .partner high =>
    if b = '\\'.toUInt8 then .ok (.partnerEscape high, []) else .error .surrogateCut
  | .partnerEscape high =>
    if b = 'u'.toUInt8 then .ok (.digits (some high) [], []) else .error .surrogateCut

/-- The bytes of a text up to its closing quote; `gained` holds those before, the last first. -/
def scanTextBytes (m : TextMode) (gained : Bytes) : Scanner Bytes
  | [] => .error (faultAt .endInText [])
  | b :: s =>
    if m.isPlain ∧ b = '"'.toUInt8 then .ok (gained.reverse, s)
    else
      match m.step b with
      | .ok (m', more) => scanTextBytes m' (more.reverse ++ gained) s
      | .error c => .error (faultAt c s)

/-- The length of the longest piece of UTF-8 among the first `n` bytes. -/
def utf8Length (b : Bytes) : Nat → Nat
  | 0 => 0
  | n + 1 => if (ofUtf8? (b.take (n + 1))).isSome then n + 1 else utf8Length b n

/-- Bytes that are no UTF-8 are reported as far before the end of the text, its closing quote
included, as they reach in it. -/
def scanText (s : Bytes) : Except Fault (String × Bytes) :=
  match scanTextBytes .plain [] s with
  | .error e => .error e
  | .ok (b, r) =>
    match ofUtf8? b with
    | some t => .ok (t, r)
    | none =>
      let back := b.length - utf8Length b b.length
      .error (faultAt .textNotUtf8 (s.drop (s.length - r.length - back)))

inductive SkipMode where
  | plain
  | escape
  | digits (seen : List UInt8)

def SkipMode.isPlain : SkipMode → Bool
  | .plain => true
  | _ => false

def SkipMode.step (m : SkipMode) (b : UInt8) : Except Cause SkipMode :=
  match m with
  | .plain => .ok (if b = '\\'.toUInt8 then .escape else .plain)
  | .escape =>
    if (shortEscape? b).isSome then .ok .plain
    else if b = 'u'.toUInt8 then .ok (.digits []) else .error .escapeBroken
  | .digits seen =>
    if seen.length < 3 then .ok (.digits (b :: seen))
    else if (hexNumber? (b :: seen)).isSome then .ok .plain
    else .error .escapeBroken

/-- A control byte is reported where it stands; any other fault behind the byte. -/
def skipTextFrom (m : SkipMode) : Bytes → Except Fault Bytes
  | [] => .error (faultAt .endInText [])
  | b :: s =>
    if m.isPlain ∧ b = '"'.toUInt8 then .ok s
    else if m.isPlain ∧ b < 0x20 then .error (faultAt .controlInText (b :: s))
    else
      match m.step b with
      | .ok m' => skipTextFrom m' s
      | .error c => .error (faultAt c s)

def skipText (s : Bytes) : Except Fault Bytes := skipTextFrom .plain s

end Heartbeat.Json
