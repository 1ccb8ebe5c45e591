import Heartbeat.Bytes
import Heartbeat.Decimal.Shortest
import Heartbeat.Text.Quoted

/-!
# Heartbeat.Json.Fault

Why reading a JSON text fails and where.

* `Found`    — a value met where another kind was wanted.
* `Cause`    — what is wrong; `Cause.text` words it.
* `Fault`    — a cause, and the input that lies after the place it is reported at.
* `Position` — line and column reached by a stretch of input; lines count from 1.
-/

namespace Heartbeat.Json

inductive Found where
  | null
  | flag (b : Bool)
  | integer (n : Int)
  | real (x : Binary64)
  | text (s : String)
  | sequence
  | map

def Found.describe : Found → String
  | .null => "null"
  | .flag b => "boolean `" ++ toString b ++ "`"
  | .integer n => "integer `" ++ toString n ++ "`"
  | .real x => "floating point `" ++ x.text ++ "`"
  | .text s => "string " ++ quoted s
  | .sequence => "sequence"
  | .map => "map"

inductive Cause where
  | endInValue
  | endInText
  | endInList
  | endInObject
  | colonMissing
  | listUnclosed
  | objectUnclosed
  | literalBroken
  | valueMissing
  | keyNotText
  | escapeBroken
  | surrogateAlone
  | surrogateCut
  | controlInText
  | textNotUtf8
  | numberBroken
  | numberTooLarge
  | commaTrailing
  | inputTrailing
  | wrongType (found : Found) (expected : String)
  | outOfRange (n : Int) (expected : String)
  | fieldMissing (name : String)
  | fieldRepeated (name : String)
  | tooShort (length : Nat) (expected : String)

def Cause.text : Cause → String
  | .endInValue => "EOF while parsing a value"
  | .endInText => "EOF while parsing a string"
  | .endInList => "EOF while parsing a list"
  | .endInObject => "EOF while parsing an object"
  | .colonMissing => "expected `:`"
  | .listUnclosed => "expected `,` or `]`"
  | .objectUnclosed => "expected `,` or `\x7d`"
  | .literalBroken => "expected ident"
  | .valueMissing => "expected value"
  | .keyNotText => "key must be a string"
  | .escapeBroken => "invalid escape"
  | .surrogateAlone => "lone leading surrogate in hex escape"
  | .surrogateCut => "unexpected end of hex escape"
  | .controlInText => "control character (\\u0000-\\u001F) found while parsing a string"
  | .textNotUtf8 => "invalid unicode code point"
  | .numberBroken => "invalid number"
  | .numberTooLarge => "number out of range"
  | .commaTrailing => "trailing comma"
  | .inputTrailing => "trailing characters"
  | .wrongType found expected => "invalid type: " ++ found.describe ++ ", expected " ++ expected
  | .outOfRange n expected => "invalid value: integer `" ++ toString n ++ "`, expected " ++ expected
  | .fieldMissing name => "missing field `" ++ name ++ "`"
  | .fieldRepeated name => "duplicate field `" ++ name ++ "`"
  | .tooShort length expected =>
    "invalid length " ++ toString length ++ ", expected " ++ expected

/-- Whether a cause concerns a record as a whole and no single place in it. -/
def Cause.ofRecord : Cause → Bool
  | .fieldMissing _ | .fieldRepeated _ | .tooShort .. => true
  | _ => false

structure Fault where
  cause : Cause
  rest : Bytes

structure Position where
  line : Nat
  column : Nat
  deriving DecidableEq, Repr

namespace Position

def start : Position := ⟨1, 0⟩

def step (p : Position) (b : UInt8) : Position :=
  if b = '\n'.toUInt8 then ⟨p.line + 1, 0⟩ else ⟨p.line, p.column + 1⟩

/-- The position that reading `b` leads to. -/
def after (b : Bytes) : Position := b.foldl step start

end Position

/-- Where in `whole` a fault is reported. -/
def Fault.position (whole : Bytes) (f : Fault) : Position :=
  .after (whole.take (whole.length - f.rest.length))

def Fault.message (whole : Bytes) (f : Fault) : String :=
  let p := f.position whole
  f.cause.text ++ " at line " ++ toString p.line ++ " column " ++ toString p.column

end Heartbeat.Json
