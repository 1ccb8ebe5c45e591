import Heartbeat.Json.Kind

/-!
# Heartbeat.Json.Record

Records: fields with names, kinds and, for some, a value when absent.

* `Schema.read` — reads a record from an object (fields in any order, other keys passed over) or
  from a list (fields in their own order, absent ones at the end only).

A complaint about the record as a whole (`Cause.ofRecord`) is placed behind its closing bracket if
that comes next.
-/

namespace Heartbeat.Json

structure Field where
  name : String
  kind : Kind
  /-- The value of the field when it is absent; a field without one is required. -/
  absent : Option kind.Value

structure Schema where
  name : String
  fields : List Field

/-- One value for each field. -/
@[reducible] def Values : List Field → Type
  | [] => Unit
  | f :: fs => f.kind.Value × Values fs

/-- The values met so far. -/
@[reducible] def Slots : List Field → Type
  | [] => Unit
  | f :: fs => Option f.kind.Value × Slots fs

def Slots.empty : (fs : List Field) → Slots fs
  | [] => ()
  | _ :: fs => (none, Slots.empty fs)

/-- The value of every field, or the name of the first required one without. -/
def Slots.complete : (fs : List Field) → Slots fs → Except String (Values fs)
  | [], () => .ok ()
  | f :: fs, (v, vs) =>
    match v.or f.absent with
    | none => .error f.name
    | some x => (Slots.complete fs vs).map (x, ·)

/-- Reads the colon and the value that follow a key. -/
def readMember (key : String) : (fs : List Field) → Slots fs → Scanner (Slots fs)
  | [], (), s =>
    match expectColon s with
    | .error e => .error e
    | .ok t => (skipValue t).map ((), ·)
  | f :: fs, (v, vs), s =>
    if f.name = key then
      match v with
      | some _ => .error (faultAt (.fieldRepeated f.name) s)
      | none =>
        match expectColon s with
        | .error e => .error e
        | .ok t => (f.kind.read t).map fun (x, r) => ((some x, vs), r)
    else (readMember key fs vs s).map fun (ws, r) => ((v, ws), r)

/-- Reads members up to the closing bracket, which it leaves. A member takes at least one byte, so
the length of the input is fuel enough. -/
def readMembersFrom (fs : List Field) : Nat → Bool → Slots fs → Scanner (Slots fs)
  | 0, _, _, s => .error (faultAt .endInObject s)
  | fuel + 1, first, vs, s =>
    match nextMember first s with
    | .error e => .error e
    | .ok (.close r) => .ok (vs, r)
    | .ok (.item r) =>
      match scanText r with
      | .error e => .error e
      | .ok (key, t) =>
        match readMember key fs vs t with
        | .error e => .error e
        | .ok (ws, u) => readMembersFrom fs fuel false ws u

/-- Reads a record's members, from behind the opening bracket to the closing one. -/
def readMembers (fs : List Field) : Scanner (Values fs) := fun s =>
  match readMembersFrom fs (s.length + 1) true (.empty fs) s with
  | .error e => .error e
  | .ok (vs, r) =>
    match vs.complete with
    | .ok xs => .ok (xs, r)
    | .error name => .error (faultAt (.fieldMissing name) r)

/-- Reads a record's elements, from behind the opening bracket up to the closing one; `taken` of
them came before. -/
def readElements (expected : String) : (fs : List Field) → Nat → Scanner (Values fs)
  | [], _, s => .ok ((), s)
  | f :: fs, taken, s =>
    match nextElement (taken == 0) s with
    | .error e => .error e
    | .ok (.close r) =>
      match f.absent with
      | none => .error (faultAt (.tooShort taken expected) r)
      | some x => (readElements expected fs taken r).map fun (xs, t) => ((x, xs), t)
    | .ok (.item r) =>
      match f.kind.read r with
      | .error e => .error e
      | .ok (x, t) => (readElements expected fs (taken + 1) t).map fun (xs, u) => ((x, xs), u)

/-- Behind the closing bracket, if that is what comes next. -/
def behindClosing (closing : UInt8) (s : Bytes) : Bytes :=
  match skipBlanks s with
  | [] => []
  | b :: r => if b = closing then r else b :: r

def Fault.settle (closing : UInt8) (f : Fault) : Fault :=
  if f.cause.ofRecord then { f with rest := behindClosing closing f.rest } else f

namespace Schema

/-- How complaints call the record and its list form. -/
def title (c : Schema) : String := "struct " ++ c.name

def listTitle (c : Schema) : String :=
  c.title ++ " with " ++ toString c.fields.length ++ " elements"

def readValue (c : Schema) : Scanner (Values c.fields) := fun s =>
  match skipBlanks s with
  | [] => .error (faultAt .endInValue [])
  | b :: r =>
    if b = '['.toUInt8 then
      match readElements c.listTitle c.fields 0 r with
      | .error e => .error (e.settle ']'.toUInt8)
      | .ok (xs, t) => (closeList t).map (xs, ·)
    else if b = '\x7b'.toUInt8 then
      match readMembers c.fields r with
      | .error e => .error (e.settle '\x7d'.toUInt8)
      | .ok (xs, t) => (closeObject t).map (xs, ·)
    else .error (mismatch c.title (b :: r))

/-- Reads a whole text that holds one record. -/
def read (c : Schema) (s : Bytes) : Except Fault (Values c.fields) :=
  match c.readValue s with
  | .error e => .error e
  | .ok (xs, r) => (expectEnd r).map fun _ => xs

end Schema
end Heartbeat.Json
