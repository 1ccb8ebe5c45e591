import Heartbeat.Json.Skip

/-!
# Heartbeat.Json.Kind

The kinds of value that a field of a record can hold, and the reader of each.

A value of another kind is read far enough to be named in the complaint; lists and objects are
named from their opening bracket.
-/

namespace Heartbeat.Json

inductive Kind where
  | flag
  | text
  /-- A text, or null for none. -/
  | note
  | word32
  | word64
  | words16
  deriving DecidableEq

@[reducible] def Kind.Value : Kind → Type
  | .flag => Bool
  | .text => String
  | .note => Option String
  | .word32 => UInt32
  | .word64 => UInt64
  | .words16 => List UInt16

/-- The fault of meeting the value at `s`, which starts with no blank, where `expected` is due. -/
def mismatch (expected : String) (s : Bytes) : Fault :=
  let complain (f : Found) (r : Bytes) : Fault := faultAt (.wrongType f expected) r
  let literal (f : Found) (word r : Bytes) : Fault :=
    match expectWord word r with
    | .ok t => complain f t
    | .error e => e
  let number (negative : Bool) (r : Bytes) : Fault :=
    match scanNumber negative r with
    | .ok (n, t) => complain n.found t
    | .error e => e
  match s with
  | [] => faultAt .valueMissing []
  | b :: r =>
    if b = 'n'.toUInt8 then literal .null ullWord r
    else if b = 't'.toUInt8 then literal (.flag true) rueWord r
    else if b = 'f'.toUInt8 then literal (.flag false) alseWord r
    else if b = '-'.toUInt8 then number true r
    else if isDigit b then number false (b :: r)
    else if b = '"'.toUInt8 then
      match scanText r with
      | .ok (t, u) => complain (.text t) u
      | .error e => e
    else if b = '['.toUInt8 then complain .sequence (b :: r)
    else if b = '\x7b'.toUInt8 then complain .map (b :: r)
    else faultAt .valueMissing r

def readFlag (s : Bytes) : Except Fault (Bool × Bytes) :=
  match skipBlanks s with
  | [] => .error (faultAt .endInValue [])
  | b :: r =>
    if b = 't'.toUInt8 then (expectWord rueWord r).map (true, ·)
    else if b = 'f'.toUInt8 then (expectWord alseWord r).map (false, ·)
    else .error (mismatch "a boolean" (b :: r))

def readText (s : Bytes) : Except Fault (String × Bytes) :=
  match skipBlanks s with
  | [] => .error (faultAt .endInValue [])
  | b :: r =>
    if b = '"'.toUInt8 then scanText r else .error (mismatch "a string" (b :: r))

def readNote (s : Bytes) : Except Fault (Option String × Bytes) :=
  match skipBlanks s with
  | [] => .error (faultAt .endInValue [])
  | b :: r =>
    if b = 'n'.toUInt8 then (expectWord ullWord r).map (none, ·)
    else (readText (b :: r)).map fun (t, u) => (some t, u)

/-- Reads a natural number below `limit`. Fractions, exponents and minus zero make a number
another kind; a plain integer outside the range is an integer of the wrong value. -/
def readWord (expected : String) (limit : Nat) (s : Bytes) : Except Fault (Nat × Bytes) :=
  let accept (r : Except Fault (Number × Bytes)) : Except Fault (Nat × Bytes) :=
    match r with
    | .error e => .error e
    | .ok (.natural n, t) =>
      if n < limit then .ok (n, t) else .error (faultAt (.outOfRange n expected) t)
    | .ok (.negative n, t) => .error (faultAt (.outOfRange (-n) expected) t)
    | .ok (.real x, t) => .error (faultAt (.wrongType (.real x) expected) t)
  match skipBlanks s with
  | [] => .error (faultAt .endInValue [])
  | b :: r =>
    if b = '-'.toUInt8 then accept (scanNumber true r)
    else if isDigit b then accept (scanNumber false (b :: r))
    else .error (mismatch expected (b :: r))

def readWord16 (s : Bytes) : Except Fault (UInt16 × Bytes) :=
  (readWord "u16" UInt16.size s).map fun (n, r) => (.ofNat n, r)

def readWord32 (s : Bytes) : Except Fault (UInt32 × Bytes) :=
  (readWord "u32" UInt32.size s).map fun (n, r) => (.ofNat n, r)

def readWord64 (s : Bytes) : Except Fault (UInt64 × Bytes) :=
  (readWord "u64" UInt64.size s).map fun (n, r) => (.ofNat n, r)

/-- Reads elements up to the closing bracket, which it leaves; `gained` holds those before, the
last first. An element takes at least one byte, so the length of the input is fuel enough. -/
def readWordsFrom : Nat → Bool → List UInt16 → Bytes → Except Fault (List UInt16 × Bytes)
  | 0, _, _, s => .error (faultAt .endInList s)
  | fuel + 1, first, gained, s =>
    match nextElement first s with
    | .error e => .error e
    | .ok (.close r) => .ok (gained.reverse, r)
    | .ok (.item r) =>
      match readWord16 r with
      | .error e => .error e
      | .ok (n, t) => readWordsFrom fuel false (n :: gained) t

def readWords16 (s : Bytes) : Except Fault (List UInt16 × Bytes) :=
  match skipBlanks s with
  | [] => .error (faultAt .endInValue [])
  | b :: r =>
    if b = '['.toUInt8 then
      match readWordsFrom (r.length + 1) true [] r with
      | .error e => .error e
      | .ok (ns, t) => (closeList t).map (ns, ·)
    else .error (mismatch "a sequence" (b :: r))

def Kind.read : (k : Kind) → Scanner k.Value
  | .flag => readFlag
  | .text => readText
  | .note => readNote
  | .word32 => readWord32
  | .word64 => readWord64
  | .words16 => readWords16

end Heartbeat.Json
