/-!
# Heartbeat.Bytes

Texts as they travel: lists of bytes.

* `utf8`   — the bytes of a text.
* `ofUtf8?` — the text that a list of bytes spells, if it spells one.
-/

namespace Heartbeat

abbrev Bytes := List UInt8

def utf8 (s : String) : Bytes := s.toUTF8.data.toList

def ofUtf8? (b : Bytes) : Option String := String.fromUTF8? ⟨b.toArray⟩

theorem ofUtf8?_utf8 (s : String) : ofUtf8? (utf8 s) = some s := by
  have h : (⟨s.toUTF8.data.toList.toArray⟩ : ByteArray) = s.toByteArray := by simp [String.toUTF8]
  unfold ofUtf8? utf8 String.fromUTF8?
  rw [h, dif_pos s.isValidUTF8]
  rfl

/-- Only the bytes of a text spell it. -/
theorem utf8_of_ofUtf8? {b : Bytes} {s : String} (h : ofUtf8? b = some s) : utf8 s = b := by
  unfold ofUtf8? String.fromUTF8? at h
  split at h
  · cases h; simp [utf8, String.toUTF8, String.fromUTF8]
  · cases h

theorem ofUtf8?_eq_some_iff {b : Bytes} {s : String} : ofUtf8? b = some s ↔ utf8 s = b :=
  ⟨utf8_of_ofUtf8?, fun h => h ▸ ofUtf8?_utf8 s⟩

/-- Whether a byte is an ASCII decimal digit. -/
def isDigit (b : UInt8) : Bool := '0'.toUInt8 ≤ b && b ≤ '9'.toUInt8

/-- The value of an ASCII decimal digit. -/
def digitValue (b : UInt8) : Nat := b.toNat - '0'.toNat

/-- The value of an ASCII hexadecimal digit of either case. -/
def hexValue? (b : UInt8) : Option Nat :=
  if isDigit b then some (digitValue b)
  else if 'a'.toUInt8 ≤ b && b ≤ 'f'.toUInt8 then some (b.toNat - 'a'.toNat + 10)
  else if 'A'.toUInt8 ≤ b && b ≤ 'F'.toUInt8 then some (b.toNat - 'A'.toNat + 10)
  else none

/-- Lower-case hexadecimal digits of a number, at least `width` of them. -/
def hexDigits (width n : Nat) : List Char :=
  let ds := Nat.toDigits 16 n
  List.replicate (width - ds.length) '0' ++ ds

end Heartbeat
