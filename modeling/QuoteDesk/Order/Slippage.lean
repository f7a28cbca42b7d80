import QuoteDesk.Decimal.Text
import QuoteDesk.Order.Basic
/-!
The bound on how far a firm order may be worse than the price that was shown.

The bound is the amount that was shown times a factor, with the fraction cut off. Selling, the maker
pays at least that; buying, the taker pays at most that.
-/
namespace QuoteDesk

inductive SlippageFault where
  | negativeFactor (factor : Decimal)
  | overflow (amount : Units) (factor : Decimal)
  | paysTooLittle (paid : Word) (shown : Units) (factor : Decimal)
  | takesTooMuch (taken : Word) (shown : Units) (factor : Decimal)
  deriving DecidableEq

def SlippageFault.message : SlippageFault → String
  | .negativeFactor factor => "negative slippage factor " ++ factor.print
  | .overflow amount factor => amount.print ++ " × " ++ factor.print ++ " overflows"
  | .paysTooLittle paid shown factor =>
    "SELL makerAmount " ++ paid.print ++ " < destAmount " ++ shown.print ++ " × " ++ factor.print
  | .takesTooMuch taken shown factor =>
    "BUY takerAmount " ++ taken.print ++ " > srcAmount " ++ shown.print ++ " × " ++ factor.print

/-- The amount times the factor, the fraction cut off. The product is formed in 256 bits. -/
def scaleAmount (amount : Units) (factor : Decimal) : Except SlippageFault Nat :=
  if factor.isNegative then .error (.negativeFactor factor)
  else
    match Word.ofNat? (amount.val * factor.coefficient.natAbs) with
    | some product => .ok (product.val / factor.unit)
    | none => .error (.overflow amount factor)

def FirmOrder.checkSlippage (o : FirmOrder) (side : SwapSide) (srcShown destShown : Units)
    (factor : Decimal) : Except SlippageFault Unit :=
  match side with
  | .sell => do
    let least ← scaleAmount destShown factor
    if o.makerAmount.val < least then throw (.paysTooLittle o.makerAmount destShown factor)
  | .buy => do
    let most ← scaleAmount srcShown factor
    if most < o.takerAmount.val then throw (.takesTooMuch o.takerAmount srcShown factor)

end QuoteDesk
