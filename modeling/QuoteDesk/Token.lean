import QuoteDesk.Decimal.Basic
import QuoteDesk.Text.Blank
/-!
Tokens and pairs of tokens.

A token is identified by its address in normal form, a pair by the name BASE/QUOTE.
-/
namespace QuoteDesk

structure Token where
  address : String
  symbol : String
  name : String
  description : String
  decimals : Nat
  kind : String
  deriving DecidableEq

def Token.create (address symbol name description : String) (decimals : Nat) (kind : String) :
    Token :=
  ⟨Text.normalize address, symbol, name, description, decimals, kind⟩

def Token.display (t : Token) : String := t.symbol ++ "(" ++ t.address ++ ")"

structure Pair where
  base : String
  quote : String
  liquidity : Decimal
  deriving DecidableEq

namespace Pair

def nameOf (base quote : String) : String := base ++ "/" ++ quote

def name (p : Pair) : String := nameOf p.base p.quote

/-- The two symbols of a name, parted at its first slash; neither may be empty. -/
def splitName? (name : String) : Option (String × String) :=
  let base := name.toList.takeWhile (· ≠ '/')
  match name.toList.dropWhile (· ≠ '/') with
  | _ :: quote => if base = [] ∨ quote = [] then none else some (.ofList base, .ofList quote)
  | [] => none

def involves (p : Pair) (symbol : String) : Bool := p.base == symbol || p.quote == symbol

end Pair

/-- The direction of a swap for the one who takes the quote: selling fixes the amount that is paid,
buying the amount that is received. -/
inductive SwapSide where
  | sell
  | buy
  deriving DecidableEq

def SwapSide.name : SwapSide → String
  | .sell => "SELL"
  | .buy => "BUY"

end QuoteDesk
