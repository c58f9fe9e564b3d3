import UtxoLedger.Curve.Modular

/-!
# Points of secp256k1

The curve y² = x³ + 7 over the integers modulo `fieldPrime`, whose points form a
group of prime order `groupOrder`. Sums are taken in Jacobian coordinates, where
(x, y, z) stands for (x / z², y / z³) and z = 0 for the neutral element, so that
one inversion at the end suffices.
-/
namespace UtxoLedger.Curve

/-- The prime of the coordinates, a little less than the 256th power of two. -/
def fieldPrime : Nat :=
  0xfffffffffffffffffffffffffffffffffffffffffffffffffffffffefffffc2f

/-- The number of points, which is a prime as well. -/
def groupOrder : Nat :=
  0xfffffffffffffffffffffffffffffffebaaedce6af48a03bbfd25e8cd0364141

/-- A point with coordinates, which the neutral element does not have. -/
structure Point where
  x : Nat
  y : Nat
  deriving DecidableEq, Repr

namespace Point

/-- The point whose multiples are the public keys. -/
def generator : Point where
  x := 0x79be667ef9dcbbac55a06295ce870b07029bfcdb2dce28d959f2815b16f81798
  y := 0x483ada7726a3c4655da4fbfc0e1108a8fd17b448a68554199c47d08ffb10d4b8

def cubic (x : Nat) : Nat :=
  (x * x * x + 7) % fieldPrime

/-- Both coordinates are reduced and satisfy the curve's equation. -/
def isValid (point : Point) : Bool :=
  point.x < fieldPrime && point.y < fieldPrime &&
    point.y * point.y % fieldPrime == cubic point.x

/-- The point over `x` whose second coordinate has the given parity. -/
def ofX? (x : Nat) (odd : Bool) : Option Point :=
  -- The prime is 3 modulo 4, so this power is a square root where there is one.
  let root := Modular.power fieldPrime (cubic x) ((fieldPrime + 1) / 4)
  let y := if decide (root % 2 = 1) = odd then root else fieldPrime - root
  if isValid ⟨x, y⟩ then some ⟨x, y⟩ else none

end Point

/-- A point over a common denominator, so that no sum needs a division. -/
structure Jacobian where
  x : Nat
  y : Nat
  z : Nat

namespace Jacobian

def neutral : Jacobian :=
  ⟨1, 1, 0⟩

def ofPoint (point : Point) : Jacobian :=
  ⟨point.x, point.y, 1⟩

/-- Divides by the denominator; none for the neutral element. -/
def toPoint? (point : Jacobian) : Option Point :=
  if point.z = 0 then none
  else
    let inverse := Modular.inverse fieldPrime point.z
    let square := inverse * inverse % fieldPrime
    some ⟨point.x * square % fieldPrime, point.y * square % fieldPrime * inverse % fieldPrime⟩

/-- The sum of a point with itself, from the slope of the tangent. -/
def double (point : Jacobian) : Jacobian :=
  let ySquare := point.y * point.y % fieldPrime
  let shared := 4 * point.x * ySquare % fieldPrime
  let slope := 3 * point.x * point.x % fieldPrime
  let x := Modular.sub fieldPrime (slope * slope) (2 * shared)
  let y := Modular.sub fieldPrime (slope * Modular.sub fieldPrime shared x)
    (8 * ySquare * ySquare)
  ⟨x, y, 2 * point.y * point.z % fieldPrime⟩

/-- The sum of two points, from the slope of the line through them. -/
def add (left right : Jacobian) : Jacobian :=
  if left.z = 0 then right
  else if right.z = 0 then left
  else
    let leftSquare := left.z * left.z % fieldPrime
    let rightSquare := right.z * right.z % fieldPrime
    let leftX := left.x * rightSquare % fieldPrime
    let rightX := right.x * leftSquare % fieldPrime
    let leftY := left.y * rightSquare % fieldPrime * right.z % fieldPrime
    let rightY := right.y * leftSquare % fieldPrime * left.z % fieldPrime
    -- Over the same x there are only a point and its negative.
    if leftX = rightX then
      if leftY = rightY then double left else neutral
    else
      let run := Modular.sub fieldPrime rightX leftX
      let rise := Modular.sub fieldPrime rightY leftY
      let runSquare := run * run % fieldPrime
      let runCube := runSquare * run % fieldPrime
      let shared := leftX * runSquare % fieldPrime
      let x := Modular.sub fieldPrime (rise * rise) (runCube + 2 * shared)
      let y := Modular.sub fieldPrime (rise * Modular.sub fieldPrime shared x) (leftY * runCube)
      ⟨x, y, left.z * right.z % fieldPrime * run % fieldPrime⟩

/-- Doubles for every bit of the scalar, and adds the point where the bit is set. -/
def scale (scalar : Nat) (point : Jacobian) : Jacobian :=
  (Modular.bits scalar).foldl (fun sum bit =>
    if bit then (double sum).add point else double sum) neutral

end Jacobian

/-- A multiple of a point; the neutral element, which no valid scalar yields, has no coordinates. -/
def Point.scale? (scalar : Nat) (point : Point) : Option Point :=
  (Jacobian.scale scalar (.ofPoint point)).toPoint?

end UtxoLedger.Curve
