import UtxoLedger.Json.Literal
import UtxoLedger.Text.Decimal

/-!
# Numerals

A numeral is kept digit by digit. Where a number is wanted it has to be within
the range of double-precision numbers, and this is decided on a significand of
at most 64 bits: further digits before the point only raise the exponent, further
digits behind it are dropped.
-/
namespace UtxoLedger.Json

/-- A number as it stands in a text. -/
structure Numeral where
  negative : Bool
  whole : List Nat
  /-- Empty when there is no decimal point. -/
  fraction : List Nat
  exponent : Option Int
  deriving DecidableEq, Repr

namespace Numeral

/-- The digits in front of a text, and what follows them. -/
def digits : List Char → List Nat × List Char
  | [] => ([], [])
  | c :: rest =>
    match Decimal.digit? c with
    | some d => (d :: (digits rest).1, (digits rest).2)
    | none => ([], c :: rest)

/-- The number that digits write in base ten. -/
def value (ds : List Nat) : Nat :=
  ds.foldl (fun n d => n * 10 + d) 0

/-- Where a digit is missing: the text has ended there, or something else stands there. -/
def missing (rest : List Char) : Fault :=
  if rest.isEmpty then .truncated else .malformed

def scanSign : List Char → Bool × List Char
  | '-' :: rest => (true, rest)
  | text => (false, text)

/-- A zero in front stands alone. -/
def scanWhole (text : List Char) : Except Fault (List Nat × List Char) :=
  match digits text with
  | ([], rest) => .error (missing rest)
  | (0 :: _ :: _, _) => .error .malformed
  | scanned => .ok scanned

/-- A decimal point needs a digit behind it. -/
def scanFraction : List Char → Except Fault (List Nat × List Char)
  | '.' :: text =>
    match digits text with
    | ([], rest) => .error (missing rest)
    | scanned => .ok scanned
  | text => .ok ([], text)

/-- The mark of an exponent needs a digit behind it; a sign may stand between them. -/
def scanExponent : List Char → Except Fault (Option Int × List Char)
  | mark :: text =>
    if mark = 'e' ∨ mark = 'E' then
      let (sign, unsigned) : Int × List Char :=
        match text with
        | '+' :: rest => (1, rest)
        | '-' :: rest => (-1, rest)
        | _ => (1, text)
      match digits unsigned with
      | ([], rest) => .error (missing rest)
      | (ds, rest) => .ok (some (sign * value ds), rest)
    else .ok (none, mark :: text)
  | [] => .ok (none, [])

/-- A whole number with all that may follow it, and the text behind it. -/
def scan (text : List Char) : Except Fault (Numeral × List Char) := do
  let (negative, unsigned) := scanSign text
  let (whole, rest) ← scanWhole unsigned
  let (fraction, rest) ← scanFraction rest
  let (exponent, rest) ← scanExponent rest
  return (⟨negative, whole, fraction, exponent⟩, rest)

/-- Written with digits alone and without a sign. -/
def isNatural (n : Numeral) : Bool :=
  !n.negative ∧ n.fraction.isEmpty ∧ n.exponent.isNone

/-- Digits taken into the significand while it stays below 64 bits, and how many were not. -/
def takeWhole (ds : List Nat) : Nat × Nat :=
  ds.foldl (fun (significand, dropped) d =>
    if dropped = 0 ∧ significand * 10 + d < UInt64.size then (significand * 10 + d, 0)
    else (significand, dropped + 1)) (0, 0)

/-- Further digits are taken while the significand stays below 64 bits, and counted. -/
def takeFraction (significand taken : Nat) : List Nat → Nat × Nat
  | [] => (significand, taken)
  | d :: ds =>
    if significand * 10 + d < UInt64.size then takeFraction (significand * 10 + d) (taken + 1) ds
    else (significand, taken)

/-- The nearest number with 53 significant bits; of two equally near ones the even one. -/
def nearestDouble (n : Nat) : Nat :=
  let excess := Nat.log2 n - 52
  let unit := Nat.pow 2 excess
  let quotient := n / unit
  let twice := n % unit * 2
  let up := twice > unit ∨ (twice = unit ∧ quotient % 2 = 1)
  (if up then quotient + 1 else quotient) * unit

/-- Too large for a double-precision number, after rounding each factor. -/
def overflows (n : Numeral) : Bool :=
  let (whole, dropped) := takeWhole n.whole
  let (significand, taken) := takeFraction whole 0 n.fraction
  -- Digits that were dropped before the point still count, those behind it do not.
  let exponent : Int := dropped - taken + n.exponent.getD 0
  if significand = 0 ∨ exponent < 0 then false
  else if exponent > 308 then true
  else nearestDouble significand * nearestDouble (Nat.pow 10 exponent.toNat) ≥
    Nat.pow 2 1024 - Nat.pow 2 970

end Numeral

end UtxoLedger.Json
