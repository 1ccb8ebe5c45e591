import Heartbeat.Json.Scan

/-!
# Heartbeat.Json.Number

JSON numbers, from behind their minus sign.

* `scanNumber` — reads one. Plain integers of 64 bits stay exact; every other number becomes a
  binary64: as many leading digits as fit 64 bits, scaled by a power of ten.
* `skipNumber` — passes over one.
-/

namespace Heartbeat.Json

inductive Number where
  | natural (n : Nat)
  /-- `-n`, for `n` from 1 to `2 ^ 63`. -/
  | negative (n : Nat)
  | real (x : Binary64)

def Number.found : Number → Found
  | .natural n => .integer n
  | .negative n => .integer (-n)
  | .real x => .real x

/-- Reads on with digits while the value stays below `limit`: that value, and the digits left. -/
def absorb (limit : Nat) : Nat → Bytes → Nat × Bytes
  | n, [] => (n, [])
  | n, d :: ds =>
    let m := 10 * n + digitValue d
    if m < limit then absorb limit m ds else (n, d :: ds)

def significandLimit : Nat := UInt64.size

def exponentLimit : Nat := UInt32.size / 2

/-- The greatest power of ten that one step scales by. -/
def greatestScale : Nat := 308

/-- `x / 10 ^ (308 * steps + last)`, rounded at every step; nothing is left to divide in zero. -/
def scaleDown : Nat → Magnitude → Nat → Magnitude
  | 0, x, last => x.div (.ofNat (Nat.pow 10 last))
  | steps + 1, x, last =>
    if x.isZero then x else scaleDown steps (x.div (.ofNat (Nat.pow 10 greatestScale))) last

/-- The magnitude of `n * 10 ^ e`, in rounded steps. -/
def scaled? (n : Nat) (e : Int) : Option Magnitude :=
  let x := Magnitude.ofNat n
  if 0 ≤ e then
    if e ≤ greatestScale then x.mul? (.ofNat (Nat.pow 10 e.toNat))
    else if x.isZero then some x else none
  else
    let k := (-e).toNat
    let steps := (k - 1) / greatestScale
    some (scaleDown steps x (k - steps * greatestScale))

/-- A number of 64 significant bits scaled by a power of ten, read to its end at `s`. -/
def scaledNumber (negative : Bool) (n : Nat) (e : Int) : Scanner Number := fun s =>
  match scaled? n e with
  | some x => .ok (.real ⟨negative, x⟩, s)
  | none => .error (faultAt .numberTooLarge s)

def isExponentMark (b : UInt8) : Bool := b = 'e'.toUInt8 || b = 'E'.toUInt8

def isSign (b : UInt8) : Bool := b = '+'.toUInt8 || b = '-'.toUInt8

/-- Reads an exponent from behind its letter. -/
def scanExponent (negative : Bool) (n : Nat) (scale : Int) : Scanner Number := fun s =>
  let down := s.head? = some '-'.toUInt8
  let t := if (s.head?.map isSign).getD false then s.drop 1 else s
  match t with
  | [] => .error (faultAt .endInValue [])
  | b :: r =>
    if isDigit b then
      let digits := t.takeWhile isDigit
      let rest := t.dropWhile isDigit
      let (k, excess) := absorb exponentLimit 0 digits
      if excess.isEmpty then scaledNumber negative n (if down then scale - k else scale + k) rest
      else if n ≠ 0 ∧ ¬ down then .error (faultAt .numberTooLarge (excess.drop 1 ++ rest))
      else .ok (.real ⟨negative, .zero⟩, rest)
    else .error (faultAt .numberBroken r)

/-- Reads what may follow the digits of a fraction. -/
def scanFractionEnd (negative : Bool) (n : Nat) (scale : Int) : Scanner Number
  | [] => scaledNumber negative n scale []
  | b :: r =>
    if isExponentMark b then scanExponent negative n scale r
    else scaledNumber negative n scale (b :: r)

/-- Reads a fraction from behind its point. -/
def scanFraction (negative : Bool) (n : Nat) (scale : Int) : Scanner Number := fun s =>
  let digits := s.takeWhile isDigit
  let rest := s.dropWhile isDigit
  if digits.isEmpty then
    match s with
    | [] => .error (faultAt .endInValue [])
    | _ :: r => .error (faultAt .numberBroken r)
  else
    let (n', excess) := absorb significandLimit n digits
    scanFractionEnd negative n' (scale - (digits.length - excess.length : Nat)) rest

/-- The number of plain digits with value `n`; minus zero and what lies below 64 signed bits are
not integers. -/
def plainNumber (negative : Bool) (n : Nat) : Number :=
  if negative then
    if 0 < n ∧ n ≤ UInt64.size / 2 then .negative n else .real ⟨true, .ofNat n⟩
  else .natural n

/-- Reads what may follow the integer digits, `excess` of which did not fit. -/
def scanIntegerEnd (negative : Bool) (n excess : Nat) : Scanner Number := fun s =>
  let plain : Except Fault (Number × Bytes) :=
    if excess = 0 then .ok (plainNumber negative n, s) else scaledNumber negative n excess s
  match s with
  | [] => plain
  | b :: r =>
    if b = '.'.toUInt8 then scanFraction negative n excess r
    else if isExponentMark b then scanExponent negative n excess r
    else plain

def scanNumber (negative : Bool) : Scanner Number
  | [] => .error (faultAt .endInValue [])
  | b :: r =>
    if b = '0'.toUInt8 then
      if (r.head?.map isDigit).getD false then .error (faultIn .numberBroken r)
      else scanIntegerEnd negative 0 0 r
    else if isDigit b then
      let digits := (b :: r).takeWhile isDigit
      let (n, excess) := absorb significandLimit 0 digits
      scanIntegerEnd negative n excess.length ((b :: r).dropWhile isDigit)
    else .error (faultAt .numberBroken r)

/-- Passes over an exponent, from behind its letter. -/
def skipExponent (s : Bytes) : Except Fault Bytes :=
  match if (s.head?.map isSign).getD false then s.drop 1 else s with
  | [] => .error (faultAt .numberBroken [])
  | b :: r => if isDigit b then .ok (r.dropWhile isDigit) else .error (faultAt .numberBroken r)

/-- Passes over a fraction, from behind its point. -/
def skipFraction (s : Bytes) : Except Fault Bytes :=
  match s.takeWhile isDigit, s.dropWhile isDigit with
  | [], r => .error (faultIn .numberBroken r)
  | _ :: _, [] => .ok []
  | _ :: _, b :: r => if isExponentMark b then skipExponent r else .ok (b :: r)

def skipIntegerEnd : Bytes → Except Fault Bytes
  | [] => .ok []
  | b :: r =>
    if b = '.'.toUInt8 then skipFraction r
    else if isExponentMark b then skipExponent r
    else .ok (b :: r)

def skipNumber : Bytes → Except Fault Bytes
  | [] => .error (faultAt .numberBroken [])
  | b :: r =>
    if b = '0'.toUInt8 then
      if (r.head?.map isDigit).getD false then .error (faultIn .numberBroken r)
      else skipIntegerEnd r
    else if isDigit b then skipIntegerEnd (r.dropWhile isDigit)
    else .error (faultAt .numberBroken r)

end Heartbeat.Json
