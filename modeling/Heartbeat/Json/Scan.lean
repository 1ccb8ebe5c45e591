import Heartbeat.Json.Fault

/-!
# Heartbeat.Json.Scan

The smallest steps of reading: blanks, fixed words and single marks.

A scanner takes the unread input and answers a value with the input after it, or a fault. A fault
found by looking at the next byte without taking it is reported behind that byte.
-/

namespace Heartbeat.Json

abbrev Scanner (α : Type) := Bytes → Except Fault (α × Bytes)

/-- A fault at the place reached. -/
def faultAt (c : Cause) (s : Bytes) : Fault := ⟨c, s⟩

/-- A fault in the byte that comes next, which is still unread. -/
def faultIn (c : Cause) (s : Bytes) : Fault := ⟨c, s.drop 1⟩

def isBlank (b : UInt8) : Bool :=
  b = ' '.toUInt8 || b = '\n'.toUInt8 || b = '\t'.toUInt8 || b = '\r'.toUInt8

def skipBlanks (s : Bytes) : Bytes := s.dropWhile isBlank

/-- Takes exactly the bytes of a word. -/
def expectWord : Bytes → Bytes → Except Fault Bytes
  | [], s => .ok s
  | _ :: _, [] => .error (faultAt .endInValue [])
  | w :: ws, b :: s => if b = w then expectWord ws s else .error (faultAt .literalBroken s)

/-- The rest of the literals, after their first letter. -/
def ullWord : Bytes := ['u', 'l', 'l'].map Char.toUInt8

def rueWord : Bytes := ['r', 'u', 'e'].map Char.toUInt8

def alseWord : Bytes := ['a', 'l', 's', 'e'].map Char.toUInt8

/-- The colon between a key and its value. -/
def expectColon (s : Bytes) : Except Fault Bytes :=
  match skipBlanks s with
  | [] => .error (faultAt .endInObject [])
  | b :: r => if b = ':'.toUInt8 then .ok r else .error (faultAt .colonMissing r)

/-- What an opened list or object says next. -/
inductive Advance where
  /-- Its closing bracket, unread. -/
  | close (s : Bytes)
  /-- An element or a member, from its first byte. -/
  | item (s : Bytes)

/-- Moves to the next element of a list whose `first` one may still be to come. -/
def nextElement (first : Bool) (s : Bytes) : Except Fault Advance :=
  match skipBlanks s with
  | [] => .error (faultAt .endInList [])
  | b :: r =>
    if b = ']'.toUInt8 then .ok (.close (b :: r))
    else if first then .ok (.item (b :: r))
    else if b = ','.toUInt8 then
      match skipBlanks r with
      | [] => .error (faultAt .endInValue [])
      | d :: t => if d = ']'.toUInt8 then .error (faultAt .commaTrailing t) else .ok (.item (d :: t))
    else .error (faultAt .listUnclosed r)

/-- Moves to the next member of an object; an item starts behind the opening quote of its key. -/
def nextMember (first : Bool) (s : Bytes) : Except Fault Advance :=
  match skipBlanks s with
  | [] => .error (faultAt .endInObject [])
  | b :: r =>
    if b = '\x7d'.toUInt8 then .ok (.close (b :: r))
    else if first then
      if b = '"'.toUInt8 then .ok (.item r) else .error (faultAt .keyNotText r)
    else if b = ','.toUInt8 then
      match skipBlanks r with
      | [] => .error (faultAt .endInValue [])
      | d :: t =>
        if d = '"'.toUInt8 then .ok (.item t)
        else if d = '\x7d'.toUInt8 then .error (faultAt .commaTrailing t)
        else .error (faultAt .keyNotText t)
    else .error (faultAt .objectUnclosed r)

/-- Takes the bracket that closes a list. -/
def closeList (s : Bytes) : Except Fault Bytes :=
  match skipBlanks s with
  | [] => .error (faultAt .endInList [])
  | b :: r =>
    if b = ']'.toUInt8 then .ok r
    else if b = ','.toUInt8 then
      let t := skipBlanks r
      if t.head? = some ']'.toUInt8 then .error (faultIn .commaTrailing t)
      else .error (faultIn .inputTrailing t)
    else .error (faultAt .inputTrailing r)

/-- Takes the bracket that closes an object. -/
def closeObject (s : Bytes) : Except Fault Bytes :=
  match skipBlanks s with
  | [] => .error (faultAt .endInObject [])
  | b :: r =>
    if b = '\x7d'.toUInt8 then .ok r
    else if b = ','.toUInt8 then .error (faultAt .commaTrailing r)
    else .error (faultAt .inputTrailing r)

/-- Nothing but blanks may follow a text's value. -/
def expectEnd (s : Bytes) : Except Fault Unit :=
  match skipBlanks s with
  | [] => .ok ()
  | _ :: r => .error (faultAt .inputTrailing r)

end Heartbeat.Json
