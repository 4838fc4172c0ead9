/-!
# Decimal numerals

Reading whole numbers of fixed width from ASCII decimal digits. A numeral is read from the left and
the reading stops at the first fault it meets, so of two faults the left one is reported. A sign
counts only in front of at least one digit.
-/

namespace ObjectStore.Text

namespace Numeral

/-- Why a text is no numeral of the width asked for. -/
inductive Flaw where
  /-- A character is not a digit, or there is no digit at all. -/
  | notDigit
  /-- The number is above the largest one. -/
  | tooLarge
  /-- The number is below the smallest one. -/
  | tooSmall
  deriving DecidableEq, Repr

/-- The wording of a flaw. -/
def Flaw.message : Flaw → String
  | .notDigit => "invalid digit found in string"
  | .tooLarge => "number too large to fit in target type"
  | .tooSmall => "number too small to fit in target type"

/-- The value of an ASCII decimal digit. -/
def digit? (c : Char) : Option Nat :=
  if '0' ≤ c ∧ c ≤ '9' then some (c.toNat - '0'.toNat) else none

/-- Reads digits after those worth `value`; to pass `bound` is the flaw `passed`. -/
def magnitude (bound : Nat) (passed : Flaw) : Nat → List Char → Except Flaw Nat
  | value, [] => .ok value
  | value, c :: rest =>
    match digit? c with
    | none => .error .notDigit
    | some d =>
      if bound < 10 * value + d then .error passed else magnitude bound passed (10 * value + d) rest

/-- Reads a signed number of 32 bits; either sign may stand in front. -/
def int32 (text : String) : Except Flaw Int32 :=
  match text.toList with
  | [] | ['+'] | ['-'] => .error .notDigit
  | '-' :: digits => (magnitude 2147483648 .tooSmall 0 digits).map fun n => Int32.ofInt (-n)
  | '+' :: digits => (magnitude 2147483647 .tooLarge 0 digits).map Int32.ofNat
  | digits => (magnitude 2147483647 .tooLarge 0 digits).map Int32.ofNat

/-- Reads a number of 64 bits without a sign, or with a plus sign in front. -/
def uint64? (text : List Char) : Option UInt64 :=
  match text with
  | [] | ['+'] => none
  | '+' :: digits => (magnitude (UInt64.size - 1) .tooLarge 0 digits).toOption.map UInt64.ofNat
  | digits => (magnitude (UInt64.size - 1) .tooLarge 0 digits).toOption.map UInt64.ofNat

end Numeral

end ObjectStore.Text
