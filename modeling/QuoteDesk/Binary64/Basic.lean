import QuoteDesk.Rounding
/-!
Finite binary floating-point numbers of 64 bits, and how a numeral becomes one.

A number is a significand below 2^53 times a power of two not below 2^(-1074). Every operation rounds
its exact result half to even; a result past the largest finite number is none.
-/
namespace QuoteDesk

structure Binary64 where
  negative : Bool
  significand : Nat
  exponent : Int
  deriving DecidableEq

namespace Binary64

def minExponent : Int := -1074

def maxExponent : Int := 971

def leastNormal : Nat := 4503599627370496

def zero (negative : Bool) : Binary64 := ⟨negative, 0, minExponent⟩

/-- The power of two for which the quotient has 53 significant bits, or the least one. -/
def unitExponent (num den : Nat) : Int :=
  let e : Int := (Nat.log2 num : Int) - (Nat.log2 den : Int) - 52
  let short := num * Nat.pow 2 (-(52 + e)).toNat < den * Nat.pow 2 (52 + e).toNat
  max (if short then e - 1 else e) minExponent

def ofRatio? (negative : Bool) (num den : Nat) : Option Binary64 :=
  if num = 0 then some (zero negative)
  else
    let e := unitExponent num den
    let q := (roundHalfEven (num * Nat.pow 2 (-e).toNat : Nat) (den * Nat.pow 2 e.toNat)).toNat
    let r : Binary64 :=
      if q < 2 * leastNormal then ⟨negative, q, e⟩ else ⟨negative, leastNormal, e + 1⟩
    if r.exponent ≤ maxExponent then some r else none

def mul? (a b : Binary64) : Option Binary64 :=
  let e := a.exponent + b.exponent
  ofRatio? (a.negative != b.negative) (a.significand * b.significand * Nat.pow 2 e.toNat)
    (Nat.pow 2 (-e).toNat)

def div? (a b : Binary64) : Option Binary64 :=
  let e := a.exponent - b.exponent
  ofRatio? (a.negative != b.negative) (a.significand * Nat.pow 2 e.toNat)
    (b.significand * Nat.pow 2 (-e).toNat)

def tenPower? (n : Nat) : Option Binary64 := ofRatio? false (pow10 n) 1

def maxTenPower : Nat := 308

/-- Multiplies by a power of ten, one rounded step at a time: a step takes at most 308 places. Three
steps bring every number to zero or the exponent into range. -/
def scaleTen? : Nat → Binary64 → Int → Option Binary64
  | steps, f, exponent =>
    if exponent.natAbs ≤ maxTenPower then
      if 0 ≤ exponent then (tenPower? exponent.natAbs).bind f.mul?
      else (tenPower? exponent.natAbs).bind f.div?
    else if f.significand = 0 then some f
    else if 0 ≤ exponent then none
    else match steps with
      | 0 => some (zero f.negative)
      | steps + 1 => do
        let next ← (tenPower? maxTenPower).bind f.div?
        scaleTen? steps next (exponent + maxTenPower)

/-- The number for a significand and a power of ten. The significand is rounded before it is
scaled. -/
def ofNumeral? (negative : Bool) (significand : Nat) (exponent : Int) : Option Binary64 := do
  let f ← ofRatio? negative significand 1
  scaleTen? 3 f exponent

end Binary64
end QuoteDesk
