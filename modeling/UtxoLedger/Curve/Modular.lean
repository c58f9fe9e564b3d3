/-!
# Arithmetic modulo a prime

Numbers are kept reduced. Powers run over the 256 bits of the exponent; an inverse
is a power, by Fermat's little theorem, and the inverse of zero is zero.
-/
namespace UtxoLedger.Modular

/-- The low 256 bits, most significant first. -/
def bits (n : Nat) : List Bool :=
  (List.range 256).reverse.map n.testBit

/-- The difference modulo a prime. The right side may be any number. -/
def sub (modulus left right : Nat) : Nat :=
  (left + (modulus - right % modulus)) % modulus

/-- Squares for every bit of the exponent, and multiplies where the bit is set. -/
def power (modulus base exponent : Nat) : Nat :=
  (bits exponent).foldl (fun value bit =>
    let square := value * value % modulus
    if bit then square * base % modulus else square) 1

/-- The power by two less than the prime, which is the inverse of all but zero. -/
def inverse (modulus n : Nat) : Nat :=
  power modulus n (modulus - 2)

end UtxoLedger.Modular
