import QuoteDesk.Decimal.Arithmetic
import QuoteDesk.Word
/-!
Amounts of a token between its smallest unit and whole tokens.

With 6 decimals the amount 1500000 is 1.5 tokens. The way back cuts off what is below the smallest
unit.
-/
namespace QuoteDesk

def Units.toTokens? (raw : Units) (decimals : Nat) : Option Decimal :=
  (Decimal.ofParts? raw.val decimals).map Decimal.normalize

namespace Decimal

def toNat? (d : Decimal) : Option Nat :=
  if 0 ≤ d.coefficient then some (d.coefficient.tdiv d.unit).toNat else none

/-- The amount in smallest units of a number of tokens. Whole and fraction are scaled apart, so that
a product too large for a decimal still has its amount. -/
def toUnits? (tokens : Decimal) (decimals : Nat) : Option Units := do
  guard (!tokens.isNegative ∧ decimals ≤ maxScale)
  let whole ← (← tokens.trunc.toNat?) * pow10 decimals |> Units.ofNat?
  let factor ← ofInt? (pow10 decimals)
  let part ← (← tokens.fract.mul? factor).trunc.toNat?
  Units.ofNat? (whole.val + part)

end Decimal
end QuoteDesk
