import Heartbeat.Url
import Heartbeat.Url.Percent

/-!
# Heartbeat.Url.Host

How the part of an address that names its host is read.

* `Url.Fault`      — what can be wrong with an address.
* `Url.readV4`     — one to four numbers, each decimal, octal after `0`, or hexadecimal after `0x`;
  the last fills the bytes that the others leave.
* `Url.readHost`   — for the schemes of the web: percent signs are resolved, letters go to lower
  case, and a name that ends in a number must be an address. Names are ASCII.
* `Url.readAnyHost` — for any other scheme, where only brackets mean something.
-/

namespace Heartbeat
namespace Url

inductive Fault where
  /-- It starts with no scheme, and there is nothing that it could be relative to. -/
  | relative
  | hostEmpty
  | nameInvalid
  | hostCharacter
  | portInvalid
  | v4Invalid
  | v6Invalid
  deriving DecidableEq, Repr

def Fault.message : Fault → String
  | relative => "relative URL without a base"
  | hostEmpty => "empty host"
  | nameInvalid => "invalid international domain name"
  | hostCharacter => "invalid domain character"
  | portInvalid => "invalid port number"
  | v4Invalid => "invalid IPv4 address"
  | v6Invalid => "invalid IPv6 address"

/-! ## Numbers for hosts -/

/-- The base of a number, and its digits. -/
def radix : List Char → Nat × List Char
  | '0' :: 'x' :: r | '0' :: 'X' :: r => (16, r)
  | '0' :: c :: r => (8, c :: r)
  | s => (10, s)

def digitBelow? (base : Nat) (c : Char) : Option Nat :=
  (Address.hexDigit? c).filter (· < base)

/-- A number in the base that its first characters tell; without digits after them it is zero. -/
def number? (s : List Char) : Option Nat :=
  if s.isEmpty then none
  else
    let (base, ds) := radix s
    ds.foldlM (fun n c => (digitBelow? base c).map (base * n + ·)) 0

/-- The labels of a name; a dot at its end starts no label. -/
def labels (n : List Char) : List (List Char) :=
  let ls := n.splitOn '.'
  if ls.getLast? = some [] then ls.dropLast else ls

def endsInNumber (n : List Char) : Bool :=
  match (labels n).getLast? with
  | none => false
  | some l => (!l.isEmpty && l.all Char.isDigit) || (number? l).isSome

/-- The value that numbers stand for, the first one being the highest byte. -/
def joinNumbers? (free : Nat) : List Nat → Option Nat
  | [] => none
  | [n] => if n < Nat.pow 256 free then some n else none
  | n :: r =>
    if n < 256 then (joinNumbers? (free - 1) r).map (n * Nat.pow 256 (free - 1) + ·) else none

def addressOfNat (n : Nat) : Address :=
  .v4 (.ofNat (n / Nat.pow 256 3)) (.ofNat (n / Nat.pow 256 2)) (.ofNat (n / 256)) (.ofNat n)

def readV4 (n : List Char) : Except Fault Host :=
  let ls := labels n
  if 4 < ls.length then .error .v4Invalid
  else
    match (ls.mapM number?).bind (joinNumbers? 4) with
    | some v => .ok (.address (addressOfNat v))
    | none => .error .v4Invalid

/-! ## Hosts -/

def readV6 (s : List Char) : Except Fault Host :=
  match s.getLast?, Address.v6? s.dropLast with
  | some ']', some a => .ok (.address a)
  | _, _ => .error .v6Invalid

/-- The characters that structure an address and cannot stand in a host. -/
def isReserved (c : Char) : Bool :=
  c == '\x00' || "\t\n\r #/:<>?@[\\]^|".toList.contains c

def nameAllows (c : Char) : Bool :=
  isPrintable c && !isReserved c && c != '%'

def readHost : List Char → Except Fault Host
  | '[' :: s => readV6 s
  | s =>
    match ofUtf8? (decode (utf8 (String.ofList s))) with
    | none => .error .nameInvalid
    | some t =>
      let n := t.toList.map Char.toLower
      if n.isEmpty then .error .hostEmpty
      else if !n.all nameAllows then .error .nameInvalid
      else if endsInNumber n then readV4 n
      else .ok (.name n)

def readAnyHost : List Char → Except Fault Host
  | '[' :: s => readV6 s
  | s => if s.any isReserved then .error .hostCharacter else .ok (.name (encode plainVerbatim s))

/-! ## Hosts and ports -/

/-- The host's text, and the port's text if there is a colon for it. Within brackets colons belong
to the host. -/
def splitPort (inBrackets : Bool) : List Char → List Char × Option (List Char)
  | [] => ([], none)
  | c :: r =>
    if c = ':' ∧ !inBrackets then ([], some r)
    else
      let (host, port) := splitPort (if c = '[' then true else if c = ']' then false else inBrackets) r
      (c :: host, port)

def portStep (n : Nat) (c : Char) : Option Nat :=
  (Address.decimalDigit? c).bind fun d => if 10 * n + d < 65536 then some (10 * n + d) else none

/-- The port to hold: none for an empty text and for the scheme's own port. -/
def readPort (scheme s : List Char) : Except Fault (Option UInt16) :=
  match s.foldlM portStep 0 with
  | none => .error .portInvalid
  | some n =>
    let p := UInt16.ofNat n
    .ok (if s.isEmpty ∨ ownPort? scheme = some p then none else some p)

/-- What comes after the last `@`; user information is dropped. -/
def afterUser (s : List Char) : List Char := (s.splitOn '@').getLastD []

/-- A host and a port. -/
def readAuthority (scheme s : List Char) : Except Fault (Host × Option UInt16) := do
  let (hostText, portText) := splitPort false (afterUser s)
  let special := (ownPort? scheme).isSome
  if hostText.isEmpty ∧ (special ∨ portText.isSome ∨ s.contains '@') then throw .hostEmpty
  let host ← if special then readHost hostText else readAnyHost hostText
  let port ← readPort scheme (portText.getD [])
  return (host, port)

end Url
end Heartbeat
