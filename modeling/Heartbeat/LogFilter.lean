import Heartbeat.Event
import Heartbeat.Text.Character
import Heartbeat.Text.Integer

/-!
# Heartbeat.LogFilter

Which log records are shown. A filter is a list of directives between commas, each of the form
`target[span{field=value}]=level` with every part optional.

* `Directive.ofText?` — reads one directive.
* `LogFilter.ofText`  — reads a filter; one that cannot be read counts as `info`.
* `LogFilter.shows`   — of the directives that bear on a record the most specific one decides.
-/

namespace Heartbeat

/-- How much a directive lets through: nothing, or all levels from this one up. -/
inductive Verbosity where
  | off
  | from (rank : Nat)
  deriving DecidableEq, Repr

/-- Errors rank 1; the less a level matters, the higher it ranks. -/
def Level.rank : Level → Nat
  | .error => 1
  | .warn => 2
  | .info => 3
  | .debug => 4

namespace Verbosity

def all : Verbosity := .from 5

def admits : Verbosity → Level → Bool
  | off, _ => false
  | .from rank, l => l.rank ≤ rank

def names : List (String × Verbosity) := [
  ("off", off), ("error", .from 1), ("warn", .from 2), ("info", .from 3), ("debug", .from 4),
  ("trace", .from 5)]

/-- A level by its name, in any case, or by its rank, which is 0 for none. -/
def ofText? (s : List Char) : Option Verbosity :=
  match readInteger 0 (UInt64.size - 1) (String.ofList s) with
  | .ok n => if n = 0 then some off else if n ≤ 5 then some (.from n.toNat) else none
  | .error _ => names.lookup (String.ofList (s.map Char.toLower))

end Verbosity

/-- What is asked of a field: that it is there, or that it has a value too. -/
structure FieldMatch where
  name : String
  hasValue : Bool
  deriving DecidableEq, Repr

structure Directive where
  target : Option String := none
  span : Option String := none
  fields : List FieldMatch := []
  verbosity : Verbosity := .all
  deriving DecidableEq, Repr

namespace Directive

/-- Where the reader is; a number says before which byte the part began. -/
inductive Place where
  | start
  | levelOrTarget (first : Nat)
  | span (first : Nat)
  | field (first : Nat)
  | fields
  | target
  | level (first : Nat)

/-- A text cut in two after so many bytes, unless that would split a character. -/
def splitAt? : Nat → List Char → Option (List Char × List Char)
  | 0, s => some ([], s)
  | _ + 1, [] => none
  | n + 1, c :: s =>
    if c.utf8Size ≤ n + 1 then
      (splitAt? (n + 1 - c.utf8Size) s).map fun (before, after) => (c :: before, after)
    else none

def byteCount : List Char → Nat
  | [] => 0
  | c :: s => c.utf8Size + byteCount s

/-- A cut comes after as many bytes as it is told, and can be made wherever a character ends. -/
theorem splitAt?_eq_some_iff {n : Nat} {s before after : List Char} :
    splitAt? n s = some (before, after) ↔ s = before ++ after ∧ byteCount before = n := by
  induction s generalizing n before with
  | nil =>
    cases before with
    | nil => cases n <;> simp [splitAt?, byteCount]
    | cons d before => cases n <;> simp [splitAt?]
  | cons c s ih =>
    have hpos := c.utf8Size_pos
    cases n with
    | zero =>
      cases before with
      | nil => simp [splitAt?, byteCount]
      | cons d before =>
        have hd := d.utf8Size_pos
        simp [splitAt?, byteCount, Nat.ne_of_gt hd]
    | succ n =>
      simp only [splitAt?, Option.ite_none_right_eq_some, Option.map_eq_some_iff]
      constructor
      · rintro ⟨hle, ⟨before', after'⟩, hs, heq⟩
        cases heq
        obtain ⟨rfl, hcount⟩ := ih.mp hs
        refine ⟨rfl, ?_⟩
        rw [byteCount, hcount]
        omega
      · rintro ⟨hs, hcount⟩
        cases before with
        | nil => cases hcount
        | cons d before =>
          cases hs
          rw [byteCount] at hcount
          have hrest : byteCount before = n + 1 - c.utf8Size := by omega
          exact ⟨by omega, (before, after), ih.mpr ⟨rfl, hrest⟩, rfl⟩

example : splitAt? 2 ['é', '='] = some (['é'], ['=']) ∧ splitAt? 1 ['é', '='] = none := by decide

/-- The part of a text from one byte to another. -/
def slice? (s : List Char) (first last : Nat) : Option (List Char) := do
  let (_, rest) ← splitAt? first s
  let (part, _) ← splitAt? (last - first) rest
  return part

def FieldMatch.ofText (s : List Char) : FieldMatch where
  name := String.ofList (s.takeWhile (· ≠ '='))
  hasValue := s.contains '='

/-- Whether a directive may begin with a character. -/
def opens (c : Char) : Bool :=
  c = '-' || c = ':' || c = '_' || isAlphanumeric c

/-- One character, with `i` bytes before it; parts are cut out of `whole`. -/
def step (whole : List Char) (i : Nat) (c : Char) : Place × Directive → Option (Place × Directive)
  | (.start, d) =>
    if c = '[' then some (.span (i + 1), d)
    else if opens c then some (.levelOrTarget i, d)
    else none
  | (.levelOrTarget first, d) =>
    if c = '=' ∨ c = '[' then do
      let name ← slice? whole first i
      return (if c = '=' then .level (i + 1) else .span (i + 1),
        { d with target := some (String.ofList name) })
    else some (.levelOrTarget first, d)
  | (.span first, d) =>
    if c = ']' then do
      let name ← slice? whole first i
      return (.target, { d with span := some (String.ofList name) })
    else if c = '\x7b' then do
      let name ← slice? whole first i
      return (.field (i + 1),
        { d with span := if name.isEmpty then none else some (String.ofList name) })
    else some (.span first, d)
  | (.field first, d) =>
    if c = '\x7d' then do
      let text ← slice? whole first i
      if text.isEmpty then none
      else return (.fields, { d with fields := d.fields ++ [FieldMatch.ofText text] })
    else some (.field first, d)
  | (.fields, d) => if c = ']' then some (.target, d) else none
  | (.target, d) => if c = '=' then some (.level (i + 1), d) else none
  | (.level first, d) => some (.level first, d)

/-- What the last part, up to the end, makes of a directive. -/
def finish (whole : List Char) : Place × Directive → Option Directive
  | (.levelOrTarget first, d) => do
    let (_, text) ← splitAt? first whole
    match Verbosity.ofText? text with
    | some v => return { d with target := none, verbosity := v }
    | none => return { d with target := some (String.ofList text), verbosity := .all }
  | (.level first, d) => do
    let (_, text) ← splitAt? first whole
    if text.isEmpty then return { d with verbosity := .all }
    else (Verbosity.ofText? text).map fun v => { d with verbosity := v }
  | (.target, d) => some d
  | _ => none

/-- Takes one character after another, with a count of their bytes. -/
def run (whole : List Char) : Nat → Place × Directive → List Char → Option Directive
  | _, state, [] => finish whole state
  | i, state, c :: s => do
    let state ← step whole i c state
    run whole (i + c.utf8Size) state s

/-- Characters are taken without the blanks around the text, but parts are cut out of all of it: a
directive after blanks cannot be read if one of its cuts, which then come too early, would split a
character. -/
def ofText? (s : List Char) : Option Directive :=
  run s 0 (.start, {}) ((s.dropWhile isBlank).reverse.dropWhile isBlank).reverse

/-- Whether a directive asks for more than a record itself can show: a span, or a value. -/
def isDynamic (d : Directive) : Bool := d.span.isSome || !d.fields.isEmpty

def isStatic (d : Directive) : Bool := d.span.isNone && d.fields.all (!·.hasValue)

/-- Whether a directive bears on a record of a target with some fields. -/
def covers (d : Directive) (target : String) (fields : List String) : Bool :=
  (match d.target with
    | none => true
    | some t => t.toList.isPrefixOf target.toList) &&
  d.fields.all fun f => fields.contains f.name

/-- A longer target is more specific, then more fields are. -/
def isMoreSpecific (d e : Directive) : Bool :=
  let length (d : Directive) : Nat := (d.target.map (·.utf8ByteSize + 1)).getD 0
  length e < length d || (length d == length e && e.fields.length < d.fields.length)

end Directive

structure LogFilter where
  directives : List Directive

namespace LogFilter

/-- Shows errors only. -/
def fallback : LogFilter := ⟨[{ verbosity := .from 1 }]⟩

def ofText? (s : String) : Option LogFilter := do
  let parts := (s.toList.splitOn ',').filter (!·.isEmpty)
  let directives ← parts.mapM Directive.ofText?
  return if directives.isEmpty then fallback else ⟨directives⟩

def ofText (s : String) : LogFilter :=
  (ofText? s).getD ⟨[{ verbosity := .from 3 }]⟩

/-- The directives that can decide on a record; a later one of the same kind takes precedence. -/
def statics (f : LogFilter) : List Directive :=
  let (dynamics, plain) := f.directives.partition (·.isDynamic)
  plain ++ dynamics.filter (·.isStatic)

def shows (f : LogFilter) (level : Level) (target : String) (fields : List String) : Bool :=
  let best := (f.statics.filter (·.covers target fields)).foldl (fun best d =>
    match best with
    | none => some d
    | some b => if b.isMoreSpecific d then some b else some d) none
  (best.map (·.verbosity.admits level)).getD false

end LogFilter
end Heartbeat
