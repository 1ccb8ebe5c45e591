import Heartbeat.Json.Text
import Heartbeat.Json.Number

/-!
# Heartbeat.Json.Skip

Passing over one value of any kind, nested to any depth. The lists and objects still open are kept
on a stack, so that the depth of the input costs no depth of recursion.
-/

namespace Heartbeat.Json

inductive Bracket where
  | list
  | object
  deriving DecidableEq

def Bracket.closing : Bracket → UInt8
  | .list => ']'.toUInt8
  | .object => '\x7d'.toUInt8

def Bracket.unclosed : Bracket → Cause
  | .list => .listUnclosed
  | .object => .objectUnclosed

def Bracket.ended : Bracket → Cause
  | .list => .endInList
  | .object => .endInObject

/-- What comes next while passing over a value. -/
inductive SkipStage where
  /-- A value. -/
  | value
  /-- The first element or member of the innermost bracket, or its end. -/
  | opened
  /-- A comma and a further element or member of the innermost bracket, or its end. -/
  | closed

/-- Passes over a key and its colon, in an object only. -/
def skipKey (b : Bracket) (s : Bytes) : Except Fault Bytes :=
  match b with
  | .list => .ok s
  | .object =>
    match skipBlanks s with
    | [] => .error (faultAt .endInObject [])
    | q :: r =>
      if q = '"'.toUInt8 then
        match skipText r with
        | .ok t => expectColon t
        | .error e => .error e
      else .error (faultAt .keyNotText r)

/-- What a value's first byte starts: a bracket, or a value that is passed over at once. -/
def skipStart (s : Bytes) : Except Fault (Option Bracket × Bytes) :=
  let whole (r : Except Fault Bytes) : Except Fault (Option Bracket × Bytes) := r.map (none, ·)
  match skipBlanks s with
  | [] => .error (faultAt .endInValue [])
  | b :: r =>
    if b = 'n'.toUInt8 then whole (expectWord ullWord r)
    else if b = 't'.toUInt8 then whole (expectWord rueWord r)
    else if b = 'f'.toUInt8 then whole (expectWord alseWord r)
    else if b = '-'.toUInt8 then whole (skipNumber r)
    else if isDigit b then whole (skipNumber (b :: r))
    else if b = '"'.toUInt8 then whole (skipText r)
    else if b = '['.toUInt8 then .ok (some .list, r)
    else if b = '\x7b'.toUInt8 then .ok (some .object, r)
    else .error (faultAt .valueMissing r)

/-- Passes over what is left of a value inside the open brackets, the innermost first. Every stage
but `opened` takes at least one byte and `opened` is left at once, so twice the length of the
input is fuel enough. -/
def skipFrom : Nat → SkipStage → List Bracket → Bytes → Except Fault Bytes
  | 0, _, _, _ => .error (faultAt .endInValue [])
  | fuel + 1, .value, stack, s =>
    match skipStart s with
    | .error e => .error e
    | .ok (some b, r) => skipFrom fuel .opened (b :: stack) r
    | .ok (none, r) => skipFrom fuel .closed stack r
  | _ + 1, .opened, [], s => .ok s
  | fuel + 1, .opened, b :: stack, s =>
    match skipBlanks s with
    | [] => .error (faultAt b.ended [])
    | c :: r =>
      if c = b.closing then skipFrom fuel .closed stack r
      else
        match skipKey b (c :: r) with
        | .ok t => skipFrom fuel .value (b :: stack) t
        | .error e => .error e
  | _ + 1, .closed, [], s => .ok s
  | fuel + 1, .closed, b :: stack, s =>
    match skipBlanks s with
    | [] => .error (faultAt b.ended [])
    | c :: r =>
      if c = ','.toUInt8 then
        match skipKey b r with
        | .ok t => skipFrom fuel .value (b :: stack) t
        | .error e => .error e
      else if c = b.closing then skipFrom fuel .closed stack r
      else .error (faultAt b.unclosed r)

def skipValue (s : Bytes) : Except Fault Bytes := skipFrom (2 * s.length + 2) .value [] s

end Heartbeat.Json
