import QuoteDesk.Desk.State
import QuoteDesk.Order.Reply
import QuoteDesk.Order.Slippage
import QuoteDesk.Text.Search
/-!
Preparing an order: from a swap that was priced to an order that can be settled.

The tokens must be listed, the user not denied and the amount not zero; only then the maker is asked.
The order it signs must exchange these assets, come from the contract, fix the amount asked for, still
be open, carry a signature that counts and stay within the slippage. The first check that fails gives
the error. A user whom the maker refuses as restricted is denied from then on.

The request takes its time, so preparing has two parts: what comes before it and what follows on the
reply.
-/
namespace QuoteDesk

structure Swap where
  src : String
  dest : String
  srcAmount : Units
  destAmount : Units
  side : SwapSide
  user : String
  /-- Selling, the least part of `destAmount` that is accepted; buying, the greatest multiple of
  `srcAmount`. -/
  slippage : Decimal
  deriving DecidableEq

def Swap.fixedAmount (s : Swap) : Units :=
  match s.side with
  | .sell => s.srcAmount
  | .buy => s.destAmount

structure PreparedOrder where
  order : FirmOrder
  digest : Bytes
  deadline : UInt64
  deriving DecidableEq

inductive OrderValue where
  | address (a : Address)
  | amount (w : Word)
  deriving DecidableEq

def OrderValue.print : OrderValue → String
  | .address a => a.print
  | .amount w => w.print

inductive PrepareError where
  | unknownToken (address : String)
  | denied (user : String)
  | cache (e : CacheError)
  | zeroAmount
  | request (e : MakerError)
  | reply (e : ReplyError)
  | badTokenAddress (address : String) (cause : Address.ReadError)
  | mismatch (field : String) (expected actual : OrderValue)
  | expired (expiry now : UInt64)
  | badSignature (digest : Bytes)
  | slippage (fault : SlippageFault)

namespace PrepareError

def message : PrepareError → String
  | .unknownToken address => "Unknown token: " ++ address
  | .denied user => "User " ++ user ++ " is blacklisted"
  | .cache e => "Cache error: " ++ e.message
  | .zeroAmount => "Firm quote requested for a zero amount"
  | .request e => "Firm quote request failed: " ++ e.message
  | .reply e => e.message
  | .badTokenAddress address cause =>
    "Firm quote has invalid token address: " ++ address ++ ": " ++ cause.message
  | .mismatch field expected actual =>
    "Firm quote " ++ field ++ " is " ++ actual.print ++ ", expected " ++ expected.print
  | .expired expiry now =>
    "Firm quote expired at " ++ Text.decimal expiry.toNat ++ " (now " ++ Text.decimal now.toNat ++ ")"
  | .badSignature digest => "Order signature does not verify for digest " ++ Hex.print digest
  | .slippage fault => "Too much slippage: " ++ fault.message

def restrictedMarker : String := "User is restricted from using Dexalot"

def isRestricted : PrepareError → Bool
  | .request e => Text.contains e.message restrictedMarker
  | _ => false

end PrepareError

structure Pending where
  swap : Swap
  src : Token
  dest : Token

namespace Pending

def quote (p : Pending) : QuoteRequest :=
  .ofSwap p.src p.dest p.swap.fixedAmount p.swap.side p.swap.user

end Pending

namespace Swap

def legs (tokens : TokenDirectory) (s : Swap) : Except PrepareError (Token × Token) :=
  match tokens.ofAddress? s.src with
  | none => .error (.unknownToken (Text.normalize s.src))
  | some src =>
    match tokens.ofAddress? s.dest with
    | none => .error (.unknownToken (Text.normalize s.dest))
    | some dest => .ok (src, dest)

def guardUser (state : State) (now : Nat) (scope : Scope) (user : String) :
    Except PrepareError Unit × State :=
  match state.isDenied now scope user with
  | (.error e, state) => (.error (.cache e), state)
  | (.ok true, state) =>
    (.error (.denied (Text.normalize user)),
      { state with metrics := state.metrics.countRejection })
  | (.ok false, state) => (.ok (), state)

def start (settings : Settings) (state : State) (now : Nat) (s : Swap) :
    Except PrepareError Pending × State :=
  match s.legs state.tokens with
  | .error e => (.error e, state)
  | .ok (src, dest) =>
    match guardUser state now settings.scope s.user with
    | (.error e, state) => (.error e, state)
    | (.ok (), state) =>
      if s.fixedAmount.val = 0 then (.error .zeroAmount, state)
      else (.ok ⟨s, src, dest⟩, state)

end Swap

namespace FirmOrder

def expectAddress (field : String) (expected actual : Address) : Except PrepareError Unit :=
  if expected = actual then .ok () else .error (.mismatch field (.address expected) (.address actual))

def expectAmount (field : String) (expected actual : Word) : Except PrepareError Unit :=
  if expected = actual then .ok () else .error (.mismatch field (.amount expected) (.amount actual))

def tokenAccount (t : Token) : Except PrepareError Address :=
  (Address.read t.address).mapError (.badTokenAddress t.address)

def checkFields (o : FirmOrder) (contract : Address) (p : Pending) : Except PrepareError Unit := do
  expectAddress "makerAsset" (← tokenAccount p.dest) o.makerAsset
  expectAddress "takerAsset" (← tokenAccount p.src) o.takerAsset
  expectAddress "maker" contract o.maker
  match p.swap.side with
  | .sell => expectAmount "takerAmount" (Word.ofUnits p.swap.srcAmount) o.takerAmount
  | .buy => expectAmount "makerAmount" (Word.ofUnits p.swap.destAmount) o.makerAmount

def checkSignature (o : FirmOrder) (digest : Bytes) (state : State) :
    Except PrepareError Unit × State :=
  match state.verifier.check digest o.signature with
  | (true, verifier) => (.ok (), { state with verifier })
  | (false, verifier) =>
    (.error (.badSignature digest),
      { state with verifier, metrics := state.metrics.countMismatch })

def accept (o : FirmOrder) (settings : Settings) (state : State) (p : Pending) (now : UInt64) :
    Except PrepareError PreparedOrder × State :=
  match o.checkFields settings.contract p with
  | .error e => (.error e, state)
  | .ok () =>
    if o.isExpired now then (.error (.expired o.expiry now), state)
    else
      let digest := settings.domainOf.digest o
      match o.checkSignature digest state with
      | (.error e, state) => (.error e, state)
      | (.ok (), state) =>
        match o.checkSlippage p.swap.side p.swap.srcAmount p.swap.destAmount p.swap.slippage with
        | .error fault => (.error (.slippage fault), state)
        | .ok () => (.ok ⟨o, digest, o.deadline⟩, state)

end FirmOrder

namespace Pending

/-- Denies the user of a swap that the maker refused, if it did so because the user is
restricted. -/
def refuse (settings : Settings) (state : State) (now : Nat) (p : Pending) (e : MakerError) :
    PrepareError × State :=
  if PrepareError.isRestricted (.request e) then
    match state.deny now settings.scope p.swap.user with
    | (.error cause, state) => (.cache cause, state)
    | (.ok (), state) => (.request e, state)
  else (.request e, state)

/-- Asks the maker and checks what it answers. `now` is the desk's time in milliseconds, `clock` the
time in seconds that an order expires by. -/
def complete (settings : Settings) (state : State) (now : Nat) (clock : UInt64) (p : Pending) :
    Except PrepareError PreparedOrder × State :=
  match state.ask (settings.firmRequest p.quote) with
  | (.error e, state) =>
    let state := { state with metrics := state.metrics.countQuote .requestError }
    let (error, state) := p.refuse settings state now e
    (.error error, state)
  | (.ok body, state) =>
    match FirmOrder.ofReply body with
    | .error e =>
      (.error (.reply e), { state with metrics := state.metrics.countQuote .invalid })
    | .ok order =>
      order.accept settings { state with metrics := state.metrics.countQuote .ok } p clock

end Pending

def Swap.prepare (settings : Settings) (state : State) (now : Nat) (clock : UInt64) (s : Swap) :
    Except PrepareError PreparedOrder × State :=
  match s.start settings state now with
  | (.error e, state) => (.error e, state)
  | (.ok p, state) => p.complete settings state now clock

end QuoteDesk
