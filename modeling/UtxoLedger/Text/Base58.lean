/-!
# Base 58

A byte string is written as the number that it spells in base 256, in base 58.
Leading zero bytes add nothing to the number, so each is written as a digit of its own.
-/
namespace UtxoLedger.Base58

/-- Digits and letters but for 0, O, I and l, which look too much alike. -/
def alphabet : List Char :=
  "123456789ABCDEFGHJKLMNPQRSTUVWXYZabcdefghijkmnopqrstuvwxyz".toList

def digit (value : Nat) : Char :=
  alphabet.getD value '1'

/-- Digits of a number, most significant first, in front of those already written. -/
def digitsOnto (n : Nat) (written : List Char) : List Char :=
  if h : n = 0 then written else digitsOnto (n / 58) (digit (n % 58) :: written)
termination_by n
decreasing_by omega

/-- Zero bytes in front are kept, and then comes the number of the others. -/
def encode (bytes : List UInt8) : List Char :=
  let zeros := bytes.takeWhile (· = 0)
  let number := bytes.foldl (fun n byte => n * 256 + byte.toNat) 0
  zeros.map (fun _ => digit 0) ++ digitsOnto number []

end UtxoLedger.Base58
