import QuoteDesk.Book.Basic
import QuoteDesk.Decimal.Units
/-!
Walking a book.

Levels are consumed in order until the amount is covered. A book that does not cover an amount gives
nothing for it: a part of an amount is never quoted as the whole. Bids pay their price for each unit;
asks are quoted the other way round, so there the average is the quantity over the notional.
-/
namespace QuoteDesk

/-- The amount still to cover left the range of decimals. Nothing sensible can follow. -/
structure Fault where
  deriving DecidableEq

/-- What a walk has consumed. `notional` is the sum of price times quantity. -/
structure Walk where
  quantity : Decimal
  notional : Decimal
  complete : Bool
  deriving DecidableEq

namespace Walk

/-- Goes on from a part of the amount already covered. There is no walk when a sum or a product
leaves the range. -/
def resume (unfilled quantity notional : Decimal) : Book → Except Fault (Option Walk)
  | [] => .ok (some ⟨quantity, notional, !unfilled.isPositive⟩)
  | level :: rest =>
    if unfilled.isPositive then
      let take := Decimal.min level.quantity unfilled
      match (level.price.mul? take).bind notional.add?, quantity.add? take with
      | some notional, some quantity =>
        match unfilled.sub? take with
        | some unfilled => Walk.resume unfilled quantity notional rest
        | none => .error ⟨⟩
      | _, _ => .ok none
    else .ok (some ⟨quantity, notional, true⟩)

def run (book : Book) (amount : Decimal) : Except Fault (Option Walk) :=
  Walk.resume amount .zero .zero book

def ratio (w : Walk) : BookSide → Decimal × Decimal
  | .bids => (w.notional, w.quantity)
  | .asks => (w.quantity, w.notional)

def averagePrice? (w : Walk) (side : BookSide) : Option Decimal :=
  if w.complete then (w.ratio side).1.div? (w.ratio side).2 else none

/-- What a covered amount yields. The product comes before the quotient, so that a walk of exactly
the amount yields its notional exactly; the average price steps in when the product is too large. -/
def yield? (w : Walk) (amount : Decimal) (side : BookSide) : Option Decimal :=
  match (amount.mul? (w.ratio side).1).bind (·.div? (w.ratio side).2) with
  | some out => some out
  | none => (w.averagePrice? side).bind (·.mul? amount)

end Walk

namespace Book

def outputFor (book : Book) (amount : Decimal) (side : BookSide) : Except Fault Decimal :=
  if amount.isPositive then
    match Walk.run book amount with
    | .error e => .error e
    | .ok none => .ok .zero
    | .ok (some w) => .ok (if w.complete then (w.yield? amount side).getD .zero else .zero)
  else .ok .zero

/-- The output in smallest units of a token, zero where it does not convert. -/
def output (book : Book) (amount : Decimal) (side : BookSide) (decimals : Nat) :
    Except Fault Units :=
  (book.outputFor amount side).map fun out => (out.toUnits? decimals).getD .zero

def outputs (book : Book) (amounts : List Decimal) (side : BookSide) (decimals : Nat) :
    Except Fault (List Units) :=
  amounts.mapM fun amount => book.output amount side decimals

end Book
end QuoteDesk
