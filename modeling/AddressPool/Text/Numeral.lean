/-! Decimal numbers within a limit, read from the left: a plus sign may lead, leading
zeros count for nothing, and the first character that is no digit or takes the number
past the limit decides the fault. -/
namespace AddressPool.Numeral

inductive Fault where
  | empty
  | digit
  | overflow
  deriving DecidableEq, Repr

def Fault.message : Fault → String
  | .empty => "cannot parse integer from empty string"
  | .digit => "invalid digit found in string"
  | .overflow => "number too large to fit in target type"

def digit? (c : Char) : Option Nat := if c.isDigit then some (c.toNat - '0'.toNat) else none

def readFrom (limit : Nat) : Nat → List Char → Except Fault Nat
  | value, [] => .ok value
  | value, c :: rest =>
      match digit? c with
      | none => .error .digit
      | some d =>
          if limit < 10 * value + d then .error .overflow
          else readFrom limit (10 * value + d) rest

def read (limit : Nat) : List Char → Except Fault Nat
  | [] => .error .empty
  | ['+'] => .error .digit
  | '+' :: digits => readFrom limit 0 digits
  | digits => readFrom limit 0 digits

def write (n : Nat) : List Char := Nat.toDigits 10 n

end AddressPool.Numeral
