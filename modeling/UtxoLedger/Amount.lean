/-!
# Amounts

Ledger values are 64-bit words. Sums, differences and products never wrap:
where the exact result does not fit, they fail.
-/
namespace UtxoLedger

/-- A number of smallest units. -/
abbrev Amount := UInt64

/-- How arithmetic on amounts fails. An underflow tells which difference was asked for. -/
inductive AmountError
  | overflow
  | underflow (left right : Amount)
  deriving DecidableEq, Repr

def AmountError.message : AmountError → String
  | .overflow => "Amount overflow"
  | .underflow left right => s!"Amount underflow: {left} - {right}"

namespace Amount

/-- A natural number as an amount, if it fits. -/
def checked (value : Nat) : Except AmountError Amount :=
  if value < UInt64.size then .ok (UInt64.ofNat value) else .error .overflow

/-- The exact sum, which fails where it takes more than 64 bits. -/
def checkedAdd (left right : Amount) : Except AmountError Amount :=
  checked (left.toNat + right.toNat)

/-- The exact difference, which fails where it would be negative. -/
def checkedSub (left right : Amount) : Except AmountError Amount :=
  if right ≤ left then .ok (left - right) else .error (.underflow left right)

def checkedMul (left right : Amount) : Except AmountError Amount :=
  checked (left.toNat * right.toNat)

/-- Adds from the left and stops at the first partial sum that does not fit. -/
def checkedSum (amounts : List Amount) : Except AmountError Amount :=
  amounts.foldlM checkedAdd 0

/-- The difference, or zero where it would be negative. -/
def saturatingSub (left right : Amount) : Amount :=
  if right ≤ left then left - right else 0

/-- The next amount; the largest one is followed by itself. -/
def saturatingSucc (value : Amount) : Amount :=
  if value.toNat + 1 < UInt64.size then value + 1 else value

end Amount

end UtxoLedger
