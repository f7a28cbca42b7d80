import QuoteDesk.Book.Walk
import QuoteDesk.Cache.Books
import QuoteDesk.Directory
/-!
Indicative prices from cached books.

A swap of two tokens is priced on the pair that joins them, whatever its orientation. Selling the base
and buying with the quote take the bids, the other two the asks. The fixed amount is counted in whole
tokens of its own token, the outcome in smallest units of the other one.
-/
namespace QuoteDesk

structure PriceQuote where
  prices : List Units
  unitDecimals : Nat
  pair : String
  exchange : String
  gasCost : UInt64
  makerAsset : String
  takerAsset : String
  side : BookSide
  deriving DecidableEq

structure Pool where
  exchange : String
  pair : String
  connectors : List Token
  liquidity : Decimal
  deriving DecidableEq

inductive PriceError where
  | cache (e : CacheError)
  | fault (f : Fault)
  deriving DecidableEq

structure Market where
  scope : Scope
  gasCost : UInt64
  tokens : TokenDirectory
  pairs : PairDirectory

def SwapSide.bookSide (side : SwapSide) (srcIsBase : Bool) : BookSide :=
  match side, srcIsBase with
  | .sell, true => .bids
  | .buy, false => .bids
  | _, _ => .asks

/-- A swap of two known tokens whose pair is listed. -/
structure Route where
  src : Token
  dest : Token
  pair : Pair
  srcIsBase : Bool
  deriving DecidableEq

namespace Route

def base (r : Route) : Token := if r.srcIsBase then r.src else r.dest

def quote (r : Route) : Token := if r.srcIsBase then r.dest else r.src

def fixedAndFree (r : Route) : SwapSide → Token × Token
  | .sell => (r.src, r.dest)
  | .buy => (r.dest, r.src)

/-- Whether a filter of pool names lets this swap pass: one of them names it in either direction. -/
def passes (r : Route) (dexKey : String) : Option (List String) → Bool
  | none => true
  | some allowed =>
    allowed.any fun p =>
      Text.normalize p == poolName dexKey r.src.address r.dest.address ||
        Text.normalize p == poolName dexKey r.dest.address r.src.address

end Route

namespace Market

def route? (m : Market) (src dest : String) : Option Route := do
  let src ← m.tokens.ofAddress? src
  let dest ← m.tokens.ofAddress? dest
  let (pair, srcIsBase) ← m.pairs.find? src.symbol dest.symbol
  return ⟨src, dest, pair, srcIsBase⟩

theorem route?_eq_some_iff {m : Market} {src dest : String} {r : Route} :
    m.route? src dest = some r ↔ m.tokens.ofAddress? src = some r.src ∧
      m.tokens.ofAddress? dest = some r.dest ∧
      m.pairs.find? r.src.symbol r.dest.symbol = some (r.pair, r.srcIsBase) := by
  constructor
  · intro h
    obtain ⟨a, ha, h⟩ := Option.bind_eq_some_iff.mp h
    obtain ⟨b, hb, h⟩ := Option.bind_eq_some_iff.mp h
    obtain ⟨⟨p, srcIsBase⟩, hfind, h⟩ := Option.bind_eq_some_iff.mp h
    obtain rfl := Option.some.inj h
    exact ⟨ha, hb, hfind⟩
  · rintro ⟨ha, hb, hfind⟩
    simp [route?, ha, hb, hfind]

/-- What an amount in smallest units yields on a book. An amount too large to count in whole tokens
yields nothing. -/
def priceOf (book : Book) (side : BookSide) (inDecimals outDecimals : Nat) (amount : Units) :
    Except Fault Units :=
  match amount.toTokens? inDecimals with
  | some tokens => book.output tokens side outDecimals
  | none => .ok .zero

def quoteOn (m : Market) (r : Route) (side : SwapSide) (book : Book) (amounts : List Units) :
    Except Fault PriceQuote := do
  let bookSide := side.bookSide r.srcIsBase
  let (fixed, free) := r.fixedAndFree side
  let prices ← amounts.mapM (priceOf book bookSide fixed.decimals free.decimals)
  return {
    prices
    unitDecimals := free.decimals
    pair := r.pair.name
    exchange := m.scope.dexKey
    gasCost := m.gasCost
    makerAsset := r.dest.address
    takerAsset := r.src.address
    side := bookSide }

/-- Prices for a list of amounts. There are none where a token, the pair or its book is not known or
not readable, or where the filter excludes the pair. -/
def prices (m : Market) (cache : Cache) (now : Nat) (src dest : String) (amounts : List Units)
    (side : SwapSide) (limit : Option (List String)) :
    Except PriceError (Option PriceQuote) × Cache :=
  match m.route? src dest with
  | none => (.ok none, cache)
  | some r =>
    if r.passes m.scope.dexKey limit then
      let (book, cache) := cache.readBook now m.scope r.base.address r.quote.address
        (side.bookSide r.srcIsBase)
      (match book with
        | .error (.cache e) => .error (.cache e)
        | .error .unreadable => .ok none
        | .ok [] => .ok none
        | .ok book =>
          match m.quoteOn r side book amounts with
          | .ok q => .ok (some q)
          | .error f => .error (.fault f), cache)
    else (.ok none, cache)

def poolNames (m : Market) (src dest : String) : List String :=
  match m.route? src dest with
  | some r => [poolName m.scope.dexKey r.src.address r.dest.address]
  | none => []

def poolOf (m : Market) (name : String) (p : Pair) : Pool :=
  ⟨m.scope.dexKey, name, [p.base, p.quote].filterMap m.tokens.ofSymbol?, p.liquidity⟩

/-- The pools of a token by falling liquidity, by name where it is equal, at most `limit` of them. -/
def topPools (m : Market) (address : String) (limit : Nat) : List Pool :=
  match m.tokens.ofAddress? address with
  | none => []
  | some t =>
    let pools := (m.pairs.pairs.entries.filter fun e => e.2.involves t.symbol).map fun e =>
      m.poolOf e.1 e.2
    (pools.mergeSort fun a b => Decimal.le b.liquidity a.liquidity).take limit

end Market
end QuoteDesk
