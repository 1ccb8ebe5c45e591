/-!
# Heartbeat.Text.Integer

Reading decimal integers of a limited range: an optional sign, then digits. The first place that is
wrong decides which fault a text has.
-/

namespace Heartbeat

inductive IntegerFault where
  | empty
  | notDigit
  | tooLarge
  | tooSmall
  deriving DecidableEq, Repr

def IntegerFault.message : IntegerFault → String
  | .empty => "cannot parse integer from empty string"
  | .notDigit => "invalid digit found in string"
  | .tooLarge => "number too large to fit in target type"
  | .tooSmall => "number too small to fit in target type"

/-- The value of digits read on from `n`, which must not exceed the greatest. -/
def readDigits (greatest : Nat) (excess : IntegerFault) : Nat → List Char → Except IntegerFault Nat
  | n, [] => .ok n
  | n, c :: cs =>
    if c.isDigit then
      let m := 10 * n + (c.toNat - '0'.toNat)
      if m ≤ greatest then readDigits greatest excess m cs else .error excess
    else .error .notDigit

/-- An integer from `-least` to `greatest`; if it cannot be negative it has no minus sign. -/
def readInteger (least greatest : Nat) (s : String) : Except IntegerFault Int :=
  match s.toList with
  | [] => .error .empty
  | ['+'] => .error .notDigit
  | ['-'] => .error .notDigit
  | '+' :: cs => (readDigits greatest .tooLarge 0 cs).map (↑·)
  | '-' :: cs =>
    if least = 0 then .error .notDigit
    else (readDigits least .tooSmall 0 cs).map fun n => -(n : Int)
  | cs => (readDigits greatest .tooLarge 0 cs).map (↑·)

end Heartbeat
