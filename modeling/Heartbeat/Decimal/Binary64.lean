/-!
# Heartbeat.Decimal.Binary64

Magnitudes of the binary64 format in exact arithmetic: a natural mantissa below `2 ^ 53` times a
power of two from `2 ^ -1074` up. Every operation rounds its exact result once, to nearest, a tie
to the even mantissa; `none` stands for a result above the largest finite magnitude.
-/

namespace Heartbeat

structure Magnitude where
  mantissa : Nat
  exponent : Int
  deriving DecidableEq, Repr

namespace Magnitude

def leastExponent : Int := -1074

def greatestExponent : Int := 971

/-- The least mantissa of a normal magnitude, `2 ^ 52`. -/
def leastNormal : Nat := 4503599627370496

/-- The integer nearest to `n / d`; a tie goes to the even one. -/
def divNearest (n d : Nat) : Nat :=
  let q := n / d
  let r := n % d
  if 2 * r < d then q else if d < 2 * r then q + 1 else q + q % 2

/-- `n / d` in units of `2 ^ e`, to the nearest integer. -/
def inUnits (n d : Nat) (e : Int) : Nat :=
  divNearest (n * Nat.pow 2 (-e).toNat) (d * Nat.pow 2 e.toNat)

/-- The greatest exponent at which `n / d` has 53 binary digits, within two. -/
def exponentNear (n d : Nat) : Int := (n.log2 : Int) - d.log2 - 52

/-- The magnitude nearest to `n / d`. -/
def ofRatio (n d : Nat) : Option Magnitude :=
  let near := exponentNear n d
  let full :=
    if n * Nat.pow 2 (-near).toNat < d * Nat.pow 2 near.toNat * leastNormal then near - 1 else near
  let e := max full leastExponent
  let m := inUnits n d e
  let x : Magnitude := if m = 2 * leastNormal then ⟨leastNormal, e + 1⟩ else ⟨m, e⟩
  if n = 0 then some ⟨0, leastExponent⟩
  else if greatestExponent < x.exponent then none else some x

def zero : Magnitude := ⟨0, leastExponent⟩

def isZero (x : Magnitude) : Bool := x.mantissa == 0

def numerator (x : Magnitude) : Nat := x.mantissa * Nat.pow 2 x.exponent.toNat

def denominator (x : Magnitude) : Nat := Nat.pow 2 (-x.exponent).toNat

def mul? (x y : Magnitude) : Option Magnitude :=
  ofRatio (x.numerator * y.numerator) (x.denominator * y.denominator)

/-- `x / y`, for `y` at least one: such a quotient cannot overflow. -/
def div (x y : Magnitude) : Magnitude :=
  (ofRatio (x.numerator * y.denominator) (x.denominator * y.numerator)).getD zero

/-- The magnitude nearest to a natural number that the format can reach. -/
def ofNat (n : Nat) : Magnitude := (ofRatio n 1).getD zero

end Magnitude

/-- A finite number of the binary64 format; zero has a sign too. -/
structure Binary64 where
  negative : Bool
  magnitude : Magnitude
  deriving DecidableEq, Repr

end Heartbeat
