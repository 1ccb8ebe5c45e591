import Heartbeat.Bytes

/-!
# Heartbeat.Json.Print

Compact JSON text: no blanks, members in the order given, and only those escapes that a string
needs.
-/

namespace Heartbeat.Json

/-- One character inside a string. -/
def printChar (c : Char) : List Char :=
  if c = '"' ∨ c = '\\' then ['\\', c]
  else if c = '\x08' then ['\\', 'b']
  else if c = '\x0c' then ['\\', 'f']
  else if c = '\n' then ['\\', 'n']
  else if c = '\r' then ['\\', 'r']
  else if c = '\t' then ['\\', 't']
  else if c.toNat < 0x20 then ['\\', 'u'] ++ hexDigits 4 c.toNat
  else [c]

def printText (s : String) : List Char := '"' :: s.toList.flatMap printChar ++ ['"']

def printFlag (b : Bool) : List Char := (toString b).toList

def printNat (n : Nat) : List Char := Nat.toDigits 10 n

/-- Items with a comma between any two. -/
def commaSeparated : List (List Char) → List Char
  | [] => []
  | [x] => x
  | x :: xs => x ++ ',' :: commaSeparated xs

def printList (items : List (List Char)) : List Char := '[' :: commaSeparated items ++ [']']

/-- An object; a key is printed as a string too. -/
def printObject (members : List (String × List Char)) : List Char :=
  '\x7b' :: commaSeparated (members.map fun (k, v) => printText k ++ ':' :: v) ++ ['\x7d']

end Heartbeat.Json
