import QuoteDesk.Address
import QuoteDesk.Json.Writer
import QuoteDesk.Token
import QuoteDesk.Word
/-!
Firm orders: the maker's signed commitment to an exact exchange, and the request for one.
-/
namespace QuoteDesk

/-- An order that the maker has signed. The maker delivers the maker asset, the taker the taker
asset; from `expiry` on, in seconds, it can no longer be settled. -/
structure FirmOrder where
  nonceAndMeta : Word
  expiry : UInt64
  makerAsset : Address
  takerAsset : Address
  maker : Address
  taker : Address
  makerAmount : Word
  takerAmount : Word
  signature : Bytes
  deriving DecidableEq

namespace FirmOrder

def isExpired (o : FirmOrder) (now : UInt64) : Bool := o.expiry ≤ now

def deadline (o : FirmOrder) : UInt64 := o.expiry

end FirmOrder

structure QuoteRequest where
  makerAsset : String
  takerAsset : String
  side : SwapSide
  amount : Units
  user : String
  deriving DecidableEq

namespace QuoteRequest

/-- A request to swap `src` for `dest`. Selling fixes what the taker pays in `src`, buying what the
taker receives in `dest`. -/
def ofSwap (src dest : Token) (amount : Units) (side : SwapSide) (user : String) : QuoteRequest :=
  ⟨dest.address, src.address, side, amount, user⟩

def amountField : SwapSide → String
  | .sell => "takerAmount"
  | .buy => "makerAmount"

def toJson (r : QuoteRequest) : Json :=
  .object
    [("makerAsset", .string r.makerAsset),
     ("takerAsset", .string r.takerAsset),
     (amountField r.side, .string r.amount.print),
     ("userAddress", .string r.user)]

end QuoteRequest
end QuoteDesk
