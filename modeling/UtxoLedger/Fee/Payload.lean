import UtxoLedger.Amount
import UtxoLedger.Bytes

/-!
# Payload fees

Data attached to a transaction is paid by a fixed schedule over its size:
straight lines between breakpoints, and past the last one a curve that grows with
the power 3/2 of the size.
-/
namespace UtxoLedger

/-- Why no fee is named for a payload. -/
inductive FeeError
  | negativeSize
  | sizeAboveMaximum
  | amount (error : AmountError)
  deriving DecidableEq, Repr

/-- The largest payload, in bytes. -/
def maximumPayload : Int := 1024

def FeeError.message : FeeError → String
  | .negativeSize => "Data size cannot be negative."
  | .sizeAboveMaximum => s!"Data size cannot be greater than {maximumPayload}."
  | .amount error => error.message

namespace Payload

/-- All payload fees are multiples of this. -/
def feeUnit : Amount := 100000

/-- Sizes with the units charged for them. -/
def breakpoints : List (UInt64 × UInt64) :=
  [(0, 0), (10, 5), (100, 65), (500, 1118)]

/-- Newton's iteration from above: the estimates fall until they are at the root. -/
def descend (n estimate next : UInt64) : UInt64 :=
  if next < estimate then descend n next ((next + n / next) / 2) else estimate
termination_by estimate.toNat
decreasing_by simpa [UInt64.lt_iff_toNat_lt] using ‹next < estimate›

/-- The integer part of the square root. -/
def isqrt (n : UInt64) : UInt64 :=
  if n < 2 then n else descend n n ((n + 1) / 2)

/-- The units for a size, on the first line that reaches as far as the size. -/
def units (size : UInt64) : List (UInt64 × UInt64) → UInt64
  | (low, lowUnits) :: (high, highUnits) :: rest =>
    -- On the line between the two breakpoints, rounded down.
    if size ≤ high then lowUnits + (size - low) * (highUnits - lowUnits) / (high - low)
    else units size ((high, highUnits) :: rest)
  | _ => isqrt (size * size * size / 100)

/-- The fee for a size that someone asks about, which may be no size at all. -/
def fee (size : Int) : Except FeeError Amount :=
  if size < 0 then .error .negativeSize
  else if size > maximumPayload then .error .sizeAboveMaximum
  else .ok (units (UInt64.ofNat size.toNat) breakpoints * feeUnit)

/-- The fee for a payload that is there. -/
def feeFor (payload : Bytes) : Except FeeError Amount :=
  fee payload.length

end Payload

end UtxoLedger
