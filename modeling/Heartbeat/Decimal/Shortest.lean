import Heartbeat.Decimal.Binary64

/-!
# Heartbeat.Decimal.Shortest

The fewest decimal digits that read back as a given magnitude, and of those the nearest; and the
notation in which such a number is shown.

* `Magnitude.shortest` — digits and decimal exponent.
* `Binary64.text`       — positional from `0.00001` to below `10 ^ 16`, otherwise with an exponent.
-/

namespace Heartbeat
namespace Magnitude

/-- The decimals that read back as one magnitude, and the magnitude, over a common denominator. -/
structure Interval where
  low : Nat
  value : Nat
  high : Nat
  denominator : Nat
  /-- Whether the two ends read back too. -/
  closed : Bool

/-- Half way to each neighbour. Below a power of two the neighbour is half as far. -/
def interval (x : Magnitude) : Interval :=
  let below := if x.mantissa = leastNormal ∧ leastExponent < x.exponent then 1 else 2
  let up := Nat.pow 2 (x.exponent - 2).toNat
  { low := (4 * x.mantissa - below) * up
    value := 4 * x.mantissa * up
    high := (4 * x.mantissa + 2) * up
    denominator := Nat.pow 2 (2 - x.exponent).toNat
    closed := x.mantissa % 2 == 0 }

namespace Interval

/-- Whether `k` units lie in the interval, the ends being given in the same measure. -/
def holds (i : Interval) (scale unit k : Nat) : Bool :=
  let v := k * unit
  if i.closed then i.low * scale ≤ v && v ≤ i.high * scale
  else i.low * scale < v && v < i.high * scale

/-- Position of the leading decimal digit: `10 ^ p ≤ value < 10 ^ (p + 1)`. -/
def leading (i : Interval) : Int :=
  if i.denominator ≤ i.value then
    ((Nat.toDigits 10 (i.value / i.denominator)).length : Int) - 1
  else
    let k := (Nat.toDigits 10 (i.denominator / i.value)).length
    if i.denominator ≤ i.value * Nat.pow 10 (k - 1) then 1 - (k : Int) else -(k : Int)

/-- The nearest multiple of `10 ^ p` that reads back, in units of `10 ^ p`, if one does. -/
def onGrid (i : Interval) (p : Int) : Option Nat :=
  let scale := Nat.pow 10 (-p).toNat
  let unit := Nat.pow 10 p.toNat * i.denominator
  let v := i.value * scale
  let k := v / unit
  match i.holds scale unit k, i.holds scale unit (k + 1) with
  | true, true =>
    let r := v - k * unit
    if 2 * r < unit then some k else if unit < 2 * r then some (k + 1) else some (k + k % 2)
  | true, false => some k
  | false, true => some (k + 1)
  | false, false => none

/-- The first of the grids `p`, `p - 1`, … with a decimal that reads back. -/
def coarsest (i : Interval) : Nat → Int → Nat × Int
  | 0, p => (i.value / i.denominator, p)
  | n + 1, p =>
    match i.onGrid p with
    | some k => (k, p)
    | none => i.coarsest n (p - 1)

end Interval

/-- Significant digits, without zeros at the end, and the position of the first of them. -/
def shortest (x : Magnitude) : List Char × Int :=
  let i := x.interval
  let (k, p) := i.coarsest 17 i.leading
  let ds := Nat.toDigits 10 k
  ((ds.reverse.dropWhile (· == '0')).reverse, p + ds.length - 1)

end Magnitude

namespace Binary64

/-- Decimal positions of the leading digit that are written without an exponent. -/
def leastPositional : Int := -5

def greatestPositional : Int := 15

/-- Digits with the first of them at position `p`, as a positional number with a point. -/
def positional (ds : List Char) (p : Int) : List Char :=
  if p < 0 then '0' :: '.' :: (List.replicate (-p - 1).toNat '0' ++ ds)
  else
    let whole := p.toNat + 1
    let fraction := ds.drop whole
    ds.take whole ++ List.replicate (whole - ds.length) '0' ++ '.' ::
      (if fraction.isEmpty then ['0'] else fraction)

/-- Digits with the first of them at position `p`, with a signed exponent. -/
def scientific (ds : List Char) (p : Int) : List Char :=
  ds.take 1 ++ (if ds.length ≤ 1 then [] else '.' :: ds.drop 1) ++
    'e' :: (if p < 0 then '-' else '+') :: Nat.toDigits 10 p.natAbs

def text (x : Binary64) : String :=
  let sign := if x.negative then ['-'] else []
  let body :=
    if x.magnitude.isZero then ['0', '.', '0']
    else
      let (ds, p) := x.magnitude.shortest
      if leastPositional ≤ p ∧ p ≤ greatestPositional then positional ds p else scientific ds p
  String.ofList (sign ++ body)

end Binary64
end Heartbeat
