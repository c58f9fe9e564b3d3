/-!
# Decimal text

The written form of 64-bit words: an optional plus sign and at least one digit.
Digits are read from the left; a character that is no digit is reported where it
stands, a value that no longer fits at the digit that made it too large.
-/
namespace UtxoLedger

/-- Why a text is no number. -/
inductive DecimalError
  | empty
  | invalidDigit
  | tooLarge
  deriving DecidableEq, Repr

def DecimalError.message : DecimalError → String
  | .empty => "cannot parse integer from empty string"
  | .invalidDigit => "invalid digit found in string"
  | .tooLarge => "number too large to fit in target type"

namespace Decimal

/-- The value of an ASCII digit; no other digits are known. -/
def digit? (c : Char) : Option Nat :=
  if '0' ≤ c ∧ c ≤ '9' then some (c.toNat - '0'.toNat) else none

/-- Reads digits onto a value that is already below the limit. -/
def scan (limit value : Nat) : List Char → Except DecimalError Nat
  | [] => .ok value
  | c :: rest =>
    match digit? c with
    | none => .error .invalidDigit
    | some d =>
      if value * 10 + d < limit then scan limit (value * 10 + d) rest else .error .tooLarge

/-- A natural number below a limit. -/
def readBelow (limit : Nat) : List Char → Except DecimalError Nat
  | [] => .error .empty
  | ['+'] => .error .invalidDigit
  | '+' :: rest => scan limit 0 rest
  | text => scan limit 0 text

def read (text : List Char) : Except DecimalError UInt64 :=
  (readBelow UInt64.size text).map UInt64.ofNat

/-- A signed 64-bit number; the negative side reaches one further than the positive. -/
def readSigned : List Char → Except DecimalError Int
  | ['-'] => .error .invalidDigit
  | '-' :: rest => (scan (Nat.pow 2 63 + 1) 0 rest).map fun value => -(value : Int)
  | text => (readBelow (Nat.pow 2 63) text).map fun value => (value : Int)

/-- Without a sign and without zeros in front. -/
def write (value : UInt64) : List Char :=
  Nat.toDigits 10 value.toNat

end Decimal

end UtxoLedger
