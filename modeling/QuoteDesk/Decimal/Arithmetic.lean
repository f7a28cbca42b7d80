import QuoteDesk.Decimal.Basic
/-!
Arithmetic of decimals.

Every operation takes the exact result, a quotient of integers, and rounds it half to even at the
largest scale whose coefficient stays in range. Addition and subtraction keep at most the larger
scale of the operands, multiplication at most the sum of the scales, division all 28 places. There
is no result where not even scale 0 fits.
-/
namespace QuoteDesk.Decimal

/-- The decimal nearest to `num / den` at the largest scale up to the given one that fits. -/
def nearest? (num : Int) (den : Nat) : Nat → Option Decimal
  | 0 => ofParts? (roundHalfEven num den) 0
  | s + 1 =>
    match ofParts? (roundHalfEven (num * (pow10 (s + 1) : Nat)) den) (s + 1) with
    | some d => some d
    | none => nearest? num den s

def add? (a b : Decimal) : Option Decimal :=
  nearest? (a.coefficient * b.unit + b.coefficient * a.unit) (a.unit * b.unit)
    (max a.scale b.scale)

def sub? (a b : Decimal) : Option Decimal :=
  nearest? (a.coefficient * b.unit - b.coefficient * a.unit) (a.unit * b.unit)
    (max a.scale b.scale)

def mul? (a b : Decimal) : Option Decimal :=
  nearest? (a.coefficient * b.coefficient) (a.unit * b.unit) (Nat.min maxScale (a.scale + b.scale))

def div? (a b : Decimal) : Option Decimal :=
  if b.isZero then none
  else nearest? (b.coefficient.sign * a.coefficient * b.unit) (b.coefficient.natAbs * a.unit) maxScale

end QuoteDesk.Decimal
