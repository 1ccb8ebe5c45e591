import Heartbeat.Bytes

/-!
# Heartbeat.Address

IP addresses, their reader and their canonical text.

* `Address.ofText?` — four decimal octets without leading zeros, or eight groups of up to four
  hexadecimal digits. Of the latter, `::` stands once for one group of zero or more, and the last
  two groups may be written as octets.
* `Address.text`    — lower case and without leading zeros; the first of the longest runs of two
  zero groups or more is `::`; an address that maps one of version 4 ends with its octets.
-/

namespace Heartbeat

inductive Address where
  | v4 (a b c d : UInt8)
  | v6 (groups : List UInt16) (eight : groups.length = 8)
  deriving DecidableEq, Repr

namespace Address

def isV4 : Address → Bool
  | v4 .. => true
  | v6 .. => false

/-! ## Reading -/

/-- The pieces between separators. -/
def pieces (separator : Char) (s : List Char) : List (List Char) := s.splitOn separator

/-- The value of digits in a base, of which there may be from one to `most`. -/
def number? (base most : Nat) (digit? : Char → Option Nat) (s : List Char) : Option Nat :=
  if s.isEmpty ∨ most < s.length then none
  else s.foldlM (fun n c => (digit? c).map (base * n + ·)) 0

def decimalDigit? (c : Char) : Option Nat :=
  if c.isDigit then some (c.toNat - '0'.toNat) else none

def hexDigit? (c : Char) : Option Nat :=
  if c.toNat < 0x80 then hexValue? c.toUInt8 else none

def octet? (s : List Char) : Option UInt8 :=
  if s.head? = some '0' ∧ 1 < s.length then none
  else (number? 10 3 decimalDigit? s).bind fun n => if n < 256 then some (.ofNat n) else none

def group? (s : List Char) : Option UInt16 := (number? 16 4 hexDigit? s).map .ofNat

def octets? (s : List Char) : Option (UInt8 × UInt8 × UInt8 × UInt8) :=
  match pieces '.' s with
  | [a, b, c, d] => do return (← octet? a, ← octet? b, ← octet? c, ← octet? d)
  | _ => none

def joinOctets (high low : UInt8) : UInt16 := high.toUInt16 * 256 + low.toUInt16

/-- The groups that the last piece stands for: one, or two written as octets. -/
def lastGroups? (s : List Char) : Option (List UInt16) :=
  match octets? s with
  | some (a, b, c, d) => some [joinOctets a b, joinOctets c d]
  | none => (group? s).map ([·])

/-- The groups that pieces stand for; only the last may be octets, and only where allowed. -/
def groupsOfPieces? (octetsAllowed : Bool) : List (List Char) → Option (List UInt16)
  | [] => some []
  | [s] => if octetsAllowed then lastGroups? s else (group? s).map ([·])
  | s :: r => do return (← group? s) :: (← groupsOfPieces? octetsAllowed r)

/-- One side of `::`, which may be empty, or a whole address without it. -/
def groups? (octetsAllowed : Bool) (s : List Char) : Option (List UInt16) :=
  if s.isEmpty then some [] else groupsOfPieces? octetsAllowed (pieces ':' s)

/-- The text before and after the first `::`. -/
def splitGap : List Char → Option (List Char × List Char)
  | ':' :: ':' :: r => some ([], r)
  | c :: r => (splitGap r).map fun (a, b) => (c :: a, b)
  | [] => none

def v6? (s : List Char) : Option Address :=
  match splitGap s with
  | none => do
    let gs ← groups? true s
    if h : gs.length = 8 then some (.v6 gs h) else none
  | some (before, after) => do
    let head ← groups? false before
    let tail ← groups? true after
    if h : head.length + tail.length < 8 then
      some (.v6 (head ++ List.replicate (8 - head.length - tail.length) 0 ++ tail)
        (by simp only [List.length_append, List.length_replicate]; omega))
    else none

def ofText? (s : String) : Option Address :=
  match octets? s.toList with
  | some (a, b, c, d) => some (.v4 a b c d)
  | none => v6? s.toList

/-- What is said of a text that is no address. -/
def syntaxMessage : String := "invalid IP address syntax"

/-! ## Writing -/

def octetsText (a b c d : UInt8) : List Char :=
  ['.'].intercalate ([a, b, c, d].map fun x => Nat.toDigits 10 x.toNat)

def groupsText (gs : List UInt16) : List Char :=
  [':'].intercalate (gs.map fun g => Nat.toDigits 16 g.toNat)

/-- How many zero groups come first. -/
def zerosAhead (gs : List UInt16) : Nat := (gs.takeWhile (· == 0)).length

/-- Where the first of the longest runs of zero groups starts, and its length. -/
def longestZeros : List UInt16 → Nat × Nat
  | [] => (0, 0)
  | g :: gs =>
    let (start, length) := longestZeros gs
    let here := zerosAhead (g :: gs)
    if length ≤ here then (0, here) else (start + 1, length)

def octetsOf (g : UInt16) : UInt8 × UInt8 := ((g / 256).toUInt8, g.toUInt8)

/-- The groups with the first of the longest runs of two zeros or more left out. -/
def shortened (gs : List UInt16) : List Char :=
  let (start, length) := longestZeros gs
  if 1 < length then
    groupsText (gs.take start) ++ [':', ':'] ++ groupsText (gs.drop (start + length))
  else groupsText gs

def v6Text (gs : List UInt16) : List Char :=
  match gs with
  | [0, 0, 0, 0, 0, 0xffff, x, y] =>
    let (a, b) := octetsOf x
    let (c, d) := octetsOf y
    [':', ':', 'f', 'f', 'f', 'f', ':'] ++ octetsText a b c d
  | gs => shortened gs

def text : Address → String
  | v4 a b c d => String.ofList (octetsText a b c d)
  | v6 gs _ => String.ofList (v6Text gs)

end Address
end Heartbeat
