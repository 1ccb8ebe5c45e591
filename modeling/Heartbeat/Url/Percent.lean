import Heartbeat.Bytes

/-!
# Heartbeat.Url.Percent

Characters written as a percent sign and two hexadecimal digits for each of their bytes.

* `Url.encode` — all but the plain characters of a part, in upper-case digits. The percent sign
  itself is plain everywhere, so what is encoded already stays as it is.
* `Url.decode` — the bytes meant; a percent sign without its digits stands for itself.
-/

namespace Heartbeat
namespace Url

def encodeByte (b : UInt8) : List Char := '%' :: (hexDigits 2 b.toNat).map Char.toUpper

def encodeChar (plain : Char → Bool) (c : Char) : List Char :=
  if plain c then [c] else (utf8 (String.singleton c)).flatMap encodeByte

def encode (plain : Char → Bool) (s : List Char) : List Char := s.flatMap (encodeChar plain)

def decode : Bytes → Bytes
  | [] => []
  | [a] => [a]
  | [a, b] => [a, b]
  | a :: b :: c :: r =>
    if a = '%'.toUInt8 then
      match hexValue? b, hexValue? c with
      | some x, some y => UInt8.ofNat (16 * x + y) :: decode r
      | _, _ => a :: decode (b :: c :: r)
    else a :: decode (b :: c :: r)

/-! ## The plain characters of each part -/

def isPrintable (c : Char) : Bool := ' ' ≤ c && c ≤ '~'

def plainIn (excluded : List Char) (c : Char) : Bool := isPrintable c && !excluded.contains c

/-- Where text is taken as it stands. -/
def plainVerbatim : Char → Bool := isPrintable

def plainFragment : Char → Bool := plainIn [' ', '"', '<', '>', '\x60']

/-- The quotation mark is plain only where the scheme is not one of the web's own. -/
def plainQuery (special : Bool) : Char → Bool :=
  plainIn ([' ', '"', '#', '<', '>'] ++ if special then ['\''] else [])

def plainPath : Char → Bool := plainIn [' ', '"', '<', '>', '\x60', '#', '?', '{', '}']

end Url
end Heartbeat
