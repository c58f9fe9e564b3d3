import UtxoLedger.Amount

/-!
# Fee policies

A transaction pays for each byte of its estimated size, and never less than a
minimum. Who wants to replace a pending transaction has to offer a rate that is
higher than the pending one's by a percentage.
-/
namespace UtxoLedger

/-- Eight bytes for the lock height; key, signature and age for an input; type, value, lock type
and compressed key for an output. -/
def estimatedSize (inputs outputs payload : Nat) : Nat :=
  8 + inputs * (64 + 64 + 4) + outputs * (1 + 8 + 1 + 33) + payload

/-- The price of a byte, the least fee of a transaction, and by how many percent more it is
replaced. -/
structure FeePolicy where
  feePerByte : UInt64 := 200
  minimumFee : UInt64 := 100000
  doubleSpentThresholdPct : UInt64 := 20
  deriving DecidableEq, Repr

namespace FeePolicy

/-- The price of a size, or the minimum where that is more. -/
def standardFee (policy : FeePolicy) (size : Nat) : Except AmountError Amount := do
  let fee ← Amount.checked (size * policy.feePerByte.toNat)
  return max fee policy.minimumFee

/-- The standard fee for each byte, rounded up. -/
def adjustedFeeRate (policy : FeePolicy) (size : Nat) : Except AmountError Amount := do
  let fee ← policy.standardFee size
  -- A transaction without any size counts as one byte.
  let bytes := max size 1
  let remainder := if fee.toNat % bytes = 0 then 0 else 1
  return UInt64.ofNat (fee.toNat / bytes + remainder)

/-- The rate that replaces a pending transaction of that size, rounded down. -/
def cancelFeeRate (policy : FeePolicy) (size : Nat) : Except AmountError Amount := do
  let rate ← policy.adjustedFeeRate size
  let percent ← Amount.checkedAdd 100 policy.doubleSpentThresholdPct
  let raised ← Amount.checkedMul rate percent
  return raised / 100

end FeePolicy

end UtxoLedger
