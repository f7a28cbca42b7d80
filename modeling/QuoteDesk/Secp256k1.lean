import QuoteDesk.Address
/-!
Public keys recovered from signatures over the curve y² = x³ + 7.

A signature is the numbers r and s and the parity of the y-coordinate of the point with x-coordinate
r. Points are kept in Jacobian coordinates, (x, y, z) standing for (x / z², y / z³), with z = 0 at
infinity.
-/
namespace QuoteDesk.Secp256k1

def fieldSize : Nat := 0xFFFFFFFFFFFFFFFFFFFFFFFFFFFFFFFFFFFFFFFFFFFFFFFFFFFFFFFEFFFFFC2F

def order : Nat := 0xFFFFFFFFFFFFFFFFFFFFFFFFFFFFFFFEBAAEDCE6AF48A03BBFD25E8CD0364141

def powMod (m : Nat) : Nat → Nat → Nat → Nat
  | 0, _, _ => 1 % m
  | bits + 1, base, exponent =>
    if exponent = 0 then 1 % m
    else
      let half := powMod m bits (base * base % m) (exponent / 2)
      if exponent % 2 = 1 then base * half % m else half

def invMod (m a : Nat) : Nat := powMod m 256 (a % m) (m - 2)

structure Point where
  x : Nat
  y : Nat
  z : Nat
  deriving DecidableEq

namespace Point

def infinity : Point := ⟨1, 1, 0⟩

def generator : Point :=
  ⟨0x79BE667EF9DCBBAC55A06295CE870B07029BFCDB2DCE28D959F2815B16F81798,
   0x483ADA7726A3C4655DA4FBFC0E1108A8FD17B448A68554199C47D08FFB10D4B8, 1⟩

def subMod (a b : Nat) : Nat := (a + (fieldSize - b % fieldSize)) % fieldSize

def double (p : Point) : Point :=
  if p.z = 0 ∨ p.y = 0 then infinity
  else
    let yy := p.y * p.y % fieldSize
    let s := 4 * p.x * yy % fieldSize
    let m := 3 * p.x * p.x % fieldSize
    let x := subMod (m * m) (2 * s)
    let y := subMod (m * subMod s x) (8 * yy * yy)
    ⟨x, y, 2 * p.y * p.z % fieldSize⟩

def add (p q : Point) : Point :=
  if p.z = 0 then q
  else if q.z = 0 then p
  else
    let pz := p.z * p.z % fieldSize
    let qz := q.z * q.z % fieldSize
    let u := p.x * qz % fieldSize
    let v := q.x * pz % fieldSize
    let s := p.y * qz * q.z % fieldSize
    let t := q.y * pz * p.z % fieldSize
    if u = v then
      if s = t then double p else infinity
    else
      let h := subMod v u
      let r := subMod t s
      let hh := h * h % fieldSize
      let hhh := hh * h % fieldSize
      let w := u * hh % fieldSize
      let x := subMod (subMod (r * r) hhh) (2 * w)
      let y := subMod (r * subMod w x) (s * hhh)
      ⟨x, y, h * p.z * q.z % fieldSize⟩

/-- The multiple of a point by a number of at most `bits` bits. -/
def mul : Nat → Nat → Point → Point
  | 0, _, _ => infinity
  | bits + 1, k, p =>
    let half := double (mul bits (k / 2) p)
    if k % 2 = 1 then add half p else half

def affine? (p : Point) : Option (Nat × Nat) :=
  if p.z = 0 then none
  else
    let i := invMod fieldSize p.z
    let ii := i * i % fieldSize
    some (p.x * ii % fieldSize, p.y * ii * i % fieldSize)

def lift? (x : Nat) (odd : Bool) : Option Point :=
  let square := (x * x % fieldSize * x + 7) % fieldSize
  let y := powMod fieldSize 256 square ((fieldSize + 1) / 4)
  if x < fieldSize ∧ y * y % fieldSize = square then
    some ⟨x, if (y % 2 == 1) == odd then y else (fieldSize - y) % fieldSize, 1⟩
  else none

end Point

/-- Whether a recovery byte asks for an odd y-coordinate; none for a byte that means nothing. -/
def oddParity? (v : Nat) : Option Bool :=
  if v = 0 ∨ v = 27 then some false
  else if v = 1 ∨ v = 28 then some true
  else if 35 ≤ v then some ((v - 35) % 2 = 1)
  else none

def accountOf (x y : Nat) : Address :=
  Address.ofNat (Bytes.toNat (Keccak.hash (Bytes.ofNat 32 x ++ Bytes.ofNat 32 y)))

/-- The account whose key made the signature (r, s) with this parity over a digest. -/
def recoverWith (digest : Bytes) (r s : Nat) (odd : Bool) : Option Address := do
  guard (0 < r ∧ r < order ∧ 0 < s ∧ s < order)
  let point ← Point.lift? r odd
  let inverse := invMod order r
  let a := (order - Bytes.toNat digest % order) * inverse % order
  let b := s * inverse % order
  let key := (Point.mul 256 a .generator).add (Point.mul 256 b point)
  let (x, y) ← key.affine?
  return accountOf x y

/-- The account that signed a digest with a signature of 65 bytes: r, s and the recovery byte. An s
above half the order stands for its negative and the other parity. -/
def recover? (digest signature : Bytes) : Option Address := do
  guard (signature.length = 65)
  let r := Bytes.toNat (signature.take 32)
  let s := Bytes.toNat ((signature.drop 32).take 32)
  let odd ← oddParity? (Bytes.toNat (signature.drop 64))
  if order / 2 < s ∧ s < order then recoverWith digest r (order - s) (!odd)
  else recoverWith digest r s odd

end QuoteDesk.Secp256k1
