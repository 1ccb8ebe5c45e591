import Heartbeat.Json.Record
import Mathlib.Data.List.Forall2

/-!
# Heartbeat.Proofs.Json.Grammar

The grammar of JSON, as far as records are read from it. Nothing here refers to a scanner.

* `Chars`   — the inside of a string of which only the form counts.
* `Spells`  — the inside of a string and the bytes it stands for; surrogates must come in pairs.
* `Content` — what stands between brackets: items with commas between them.
* `Value`   — a value of any kind, nested to any depth.
* `Schema.Spells` — a text that is a record: an object, or a list of the values in their order.
-/

namespace Heartbeat.Json

def Blank (s : Bytes) : Prop := ∀ b ∈ s, isBlank b = true

/-! ## Strings -/

/-- Four hexadecimal digits and their value. -/
def CodeUnit (digits : Bytes) (n : Nat) : Prop :=
  digits.length = 4 ∧ hexNumber? digits.reverse = some n

inductive Chars : Bytes → Prop where
  | nil : Chars []
  | plain {b : UInt8} {s : Bytes} :
      0x20 ≤ b → b ≠ '"'.toUInt8 → b ≠ '\\'.toUInt8 → Chars s → Chars (b :: s)
  | short {b e : UInt8} {s : Bytes} :
      shortEscape? b = some e → Chars s → Chars ('\\'.toUInt8 :: b :: s)
  | code {digits s : Bytes} {n : Nat} :
      CodeUnit digits n → Chars s → Chars ('\\'.toUInt8 :: 'u'.toUInt8 :: (digits ++ s))

inductive Spells : Bytes → Bytes → Prop where
  | nil : Spells [] []
  | plain {b : UInt8} {s t : Bytes} :
      0x20 ≤ b → b ≠ '"'.toUInt8 → b ≠ '\\'.toUInt8 → Spells s t → Spells (b :: s) (b :: t)
  | short {b e : UInt8} {s t : Bytes} :
      shortEscape? b = some e → Spells s t → Spells ('\\'.toUInt8 :: b :: s) (e :: t)
  | code {digits s t : Bytes} {n : Nat} :
      CodeUnit digits n → isHighSurrogate n = false → isLowSurrogate n = false → Spells s t →
      Spells ('\\'.toUInt8 :: 'u'.toUInt8 :: (digits ++ s))
        (String.utf8EncodeChar (Char.ofNat n) ++ t)
  | pair {digits digits' s t : Bytes} {high low : Nat} :
      CodeUnit digits high → isHighSurrogate high = true →
      CodeUnit digits' low → isLowSurrogate low = true → Spells s t →
      Spells ('\\'.toUInt8 :: 'u'.toUInt8 ::
          (digits ++ '\\'.toUInt8 :: 'u'.toUInt8 :: (digits' ++ s)))
        (String.utf8EncodeChar (Char.ofNat (joinSurrogates high low)) ++ t)

/-- A string with its quotes, and the text it stands for. -/
def TextSpells (s : Bytes) (t : String) : Prop :=
  ∃ q, s = '"'.toUInt8 :: (q ++ ['"'.toUInt8]) ∧ Spells q (utf8 t)

/-! ## Literals and numbers -/

def nullWord : Bytes := 'n'.toUInt8 :: ullWord

def flagWord : Bool → Bytes
  | true => 't'.toUInt8 :: rueWord
  | false => 'f'.toUInt8 :: alseWord

def Digits (s : Bytes) : Prop := s ≠ [] ∧ ∀ d ∈ s, isDigit d = true

/-- Digits with no zero before them. -/
inductive Integer : Bytes → Prop where
  | zero : Integer ['0'.toUInt8]
  | other {d : UInt8} {s : Bytes} :
      d ≠ '0'.toUInt8 → Digits (d :: s) → Integer (d :: s)

inductive Fraction : Bytes → Prop where
  | none : Fraction []
  | some {s : Bytes} : Digits s → Fraction ('.'.toUInt8 :: s)

inductive Exponent : Bytes → Prop where
  | none : Exponent []
  | plain {e : UInt8} {s : Bytes} : isExponentMark e = true → Digits s → Exponent (e :: s)
  | signed {e sign : UInt8} {s : Bytes} :
      isExponentMark e = true → isSign sign = true → Digits s → Exponent (e :: sign :: s)

/-- A number without its minus sign. -/
def Unsigned (s : Bytes) : Prop :=
  ∃ i f e, Integer i ∧ Fraction f ∧ Exponent e ∧ s = i ++ (f ++ e)

/-! ## Values -/

/-- A value that is no list and no object. -/
inductive Whole : Bytes → Prop where
  | null : Whole nullWord
  | flag (b : Bool) : Whole (flagWord b)
  | positive {s : Bytes} : Unsigned s → Whole s
  | negative {s : Bytes} : Unsigned s → Whole ('-'.toUInt8 :: s)
  | text {s : Bytes} : Chars s → Whole ('"'.toUInt8 :: (s ++ ['"'.toUInt8]))

section Items

variable {α : Type}

/-- What may follow a value between brackets: blanks, or a comma and a further item. An item is a
value and what leads to it; `lead` says what that may be and mean. -/
inductive Rest (lead : Bytes → α → Prop) : Bytes → List (α × Bytes) → Prop where
  | blank {w : Bytes} : Blank w → Rest lead w []
  | more {w k w' v t : Bytes} {a : α} {items : List (α × Bytes)} :
      Blank w → lead k a → Blank w' → Rest lead t items →
      Rest lead (w ++ ','.toUInt8 :: (k ++ (w' ++ (v ++ t)))) ((a, v) :: items)

/-- What stands between brackets, and the items there. -/
inductive Content (lead : Bytes → α → Prop) : Bytes → List (α × Bytes) → Prop where
  | blank {w : Bytes} : Blank w → Content lead w []
  | items {k w v t : Bytes} {a : α} {items : List (α × Bytes)} :
      lead k a → Blank w → Rest lead t items →
      Content lead (k ++ (w ++ (v ++ t))) ((a, v) :: items)

end Items

/-- An element of a list is a value alone. -/
def elementLead (k : Bytes) (_ : Unit) : Prop := k = []

/-- A member of an object starts with a key and a colon. -/
def keyLead (inside : Bytes → Prop) (k : Bytes) : Prop :=
  ∃ w q w', Blank w ∧ inside q ∧ Blank w' ∧
    k = w ++ '"'.toUInt8 :: (q ++ '"'.toUInt8 :: (w' ++ [':'.toUInt8]))

/-- A member whose key stands for a text. -/
def memberLead (k : Bytes) (key : String) : Prop := keyLead (Spells · (utf8 key)) k

namespace Bracket

def opening : Bracket → UInt8
  | list => '['.toUInt8
  | object => '\x7b'.toUInt8

/-- What leads to a value of which only the form counts. -/
def lead : Bracket → Bytes → Unit → Prop
  | list => elementLead
  | object => fun k _ => keyLead Chars k

end Bracket

inductive Value : Bytes → Prop where
  | whole {s : Bytes} : Whole s → Value s
  | inside (b : Bracket) {s : Bytes} {items : List (Unit × Bytes)} :
      Content b.lead s items → (∀ p ∈ items, Value p.2) →
      Value (b.opening :: (s ++ [b.closing]))

/-! ## Fields -/

/-- The number that digits stand for behind the number before them. -/
def decimalFrom : Nat → Bytes → Nat
  | n, [] => n
  | n, d :: ds => decimalFrom (10 * n + digitValue d) ds

def decimal (s : Bytes) : Nat := decimalFrom 0 s

/-- Null, or a string for some text. -/
def NoteSpells (s : Bytes) : Option String → Prop
  | none => s = nullWord
  | some t => TextSpells s t

def WordSpells (limit : Nat) (s : Bytes) (n : Nat) : Prop :=
  Integer s ∧ decimal s = n ∧ n < limit

/-- How a value of each kind is written. -/
def Kind.Spells : (k : Kind) → Bytes → k.Value → Prop
  | .flag, s, b => s = flagWord b
  | .text, s, t => TextSpells s t
  | .note, s, t => NoteSpells s t
  | .word32, s, n => WordSpells UInt32.size s n.toNat
  | .word64, s, n => WordSpells UInt64.size s n.toNat
  | .words16, s, ns => ∃ c items, s = '['.toUInt8 :: (c ++ [']'.toUInt8]) ∧
      Content elementLead c items ∧
      (items.map (·.2)).Forall₂ (fun v n => WordSpells UInt16.size v n.toNat) ns

/-- The values that members with a key have. -/
def valuesOf (key : String) (members : List (String × Bytes)) : List Bytes :=
  (members.filter (·.1 == key)).map (·.2)

/-- A field is given once, or it is absent and has a value all the same. -/
def Field.Given (f : Field) (members : List (String × Bytes)) (x : f.kind.Value) : Prop :=
  (∃ v, valuesOf f.name members = [v] ∧ f.kind.Spells v x) ∨
    (valuesOf f.name members = [] ∧ f.absent = some x)

def AllGiven (members : List (String × Bytes)) : (fs : List Field) → Values fs → Prop
  | [], _ => True
  | f :: fs, (x, xs) => f.Given members x ∧ AllGiven members fs xs

/-- The values stand in the order of the fields; some at the end may be missing. -/
def Listed : (fs : List Field) → Values fs → List Bytes → Prop
  | [], _, vs => vs = []
  | f :: fs, (x, xs), [] => f.absent = some x ∧ Listed fs xs []
  | f :: fs, (x, xs), v :: vs => f.kind.Spells v x ∧ Listed fs xs vs

/-- A text that is a record. -/
inductive Schema.Spells (c : Schema) : Bytes → Values c.fields → Prop where
  | object {w s w' : Bytes} {members : List (String × Bytes)} {xs : Values c.fields} :
      Blank w → Blank w' → Content memberLead s members → AllGiven members c.fields xs →
      (∀ p ∈ members, p.1 ∉ c.fields.map (·.name) → Value p.2) →
      Spells c (w ++ '\x7b'.toUInt8 :: (s ++ '\x7d'.toUInt8 :: w')) xs
  | list {w s w' : Bytes} {items : List (Unit × Bytes)} {xs : Values c.fields} :
      Blank w → Blank w' → Content elementLead s items →
      Listed c.fields xs (items.map (·.2)) →
      Spells c (w ++ '['.toUInt8 :: (s ++ ']'.toUInt8 :: w')) xs

end Heartbeat.Json
