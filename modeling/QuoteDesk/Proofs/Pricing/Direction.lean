import QuoteDesk.Pricing
import QuoteDesk.Proofs.Listing.Index
/-!
Both directions of a swap. Whether an amount of one token is sold for another or bought with it, the same
pair, the same side of its book and the same amount are asked for. Main statement: the two requests have
the same answer, with what is delivered and what is paid exchanged.
-/
namespace QuoteDesk

def SwapSide.opposite : SwapSide → SwapSide
  | .sell => .buy
  | .buy => .sell

theorem SwapSide.bookSide_opposite (side : SwapSide) (srcIsBase : Bool) :
    side.opposite.bookSide (!srcIsBase) = side.bookSide srcIsBase := by
  cases side <;> cases srcIsBase <;> rfl

/-- The quote for the request from the other end. -/
def PriceQuote.reverse (q : PriceQuote) : PriceQuote :=
  { q with makerAsset := q.takerAsset, takerAsset := q.makerAsset }

namespace PairDirectory

variable (d : PairDirectory) (first second : String)

theorem isSome_find?_comm : (d.find? second first).isSome = (d.find? first second).isSome := by
  unfold find?
  cases d.named? (Pair.nameOf first second) <;> cases d.named? (Pair.nameOf second first) <;> rfl

/-- The pair that is found does not depend on the order of two symbols, as long as one order at most is
listed. -/
theorem find?_reverse (hone : ¬ (d.contains (Pair.nameOf first second) = true ∧
    d.contains (Pair.nameOf second first) = true)) :
    d.find? second first = (d.find? first second).map fun found => (found.1, !found.2) := by
  have hnamed : ∀ name p, d.named? name = some p → d.contains name = true := by
    intro name p hp
    exact Option.isSome_iff_exists.mpr ⟨p, hp⟩
  unfold find?
  cases hfirst : d.named? (Pair.nameOf first second) with
  | none => cases d.named? (Pair.nameOf second first) <;> rfl
  | some p =>
    cases hsecond : d.named? (Pair.nameOf second first) with
    | none => rfl
    | some q => exact absurd ⟨hnamed _ p hfirst, hnamed _ q hsecond⟩ hone

end PairDirectory

namespace Route

variable (r : Route)

def reverse : Route := ⟨r.dest, r.src, r.pair, !r.srcIsBase⟩

theorem base_reverse : r.reverse.base = r.base := by
  unfold base reverse
  cases r.srcIsBase <;> rfl

theorem quote_reverse : r.reverse.quote = r.quote := by
  unfold quote reverse
  cases r.srcIsBase <;> rfl

theorem fixedAndFree_reverse (side : SwapSide) :
    r.reverse.fixedAndFree side.opposite = r.fixedAndFree side := by
  cases side <;> rfl

theorem passes_reverse (dexKey : String) (limit : Option (List String)) :
    r.reverse.passes dexKey limit = r.passes dexKey limit := by
  cases limit with
  | none => rfl
  | some allowed =>
    unfold passes reverse
    simp only [Bool.or_comm]

end Route

namespace Market

variable (m : Market)

theorem quoteOn_reverse (r : Route) (side : SwapSide) (book : Book) (amounts : List Units) :
    m.quoteOn r.reverse side.opposite book amounts =
      (m.quoteOn r side book amounts).map PriceQuote.reverse := by
  have hside : side.opposite.bookSide r.reverse.srcIsBase = side.bookSide r.srcIsBase :=
    side.bookSide_opposite r.srcIsBase
  unfold quoteOn
  simp only [hside, r.fixedAndFree_reverse]
  cases amounts.mapM (priceOf book (side.bookSide r.srcIsBase) (r.fixedAndFree side).1.decimals
    (r.fixedAndFree side).2.decimals) <;> rfl

theorem route?_reverse {m : Market} {first second : String} {a b : Token}
    (ha : m.tokens.ofAddress? first = some a) (hb : m.tokens.ofAddress? second = some b)
    (hone : ¬ (m.pairs.contains (Pair.nameOf a.symbol b.symbol) = true ∧
      m.pairs.contains (Pair.nameOf b.symbol a.symbol) = true)) :
    m.route? second first = (m.route? first second).map Route.reverse := by
  have hfind := m.pairs.find?_reverse a.symbol b.symbol hone
  simp only [route?, ha, hb, Option.bind_eq_bind, Option.bind_some, hfind]
  cases m.pairs.find? a.symbol b.symbol <;> rfl

/-- An amount of one known token that is sold for another, and the same amount that is bought with the
other, have one answer from any cache: no price, the same error, or quotes that differ only in the
exchange of what is delivered and what is paid. An order of two symbols is listed if its name is, so of
two orders with one name both are listed or none. -/
theorem prices_reverse (cache : Cache) (now : Nat) {first second : String} {a b : Token}
    (ha : m.tokens.ofAddress? first = some a) (hb : m.tokens.ofAddress? second = some b)
    (hone : ¬ (m.pairs.contains (Pair.nameOf a.symbol b.symbol) = true ∧
      m.pairs.contains (Pair.nameOf b.symbol a.symbol) = true))
    (amounts : List Units) (side : SwapSide) (limit : Option (List String)) :
    m.prices cache now second first amounts side.opposite limit =
      (m.prices cache now first second amounts side limit).map
        (Except.map (Option.map PriceQuote.reverse)) id := by
  have hroute := route?_reverse ha hb hone
  cases hr : m.route? first second with
  | none =>
    rw [hr] at hroute
    simp only [prices, hr, hroute]
    rfl
  | some r =>
    rw [hr] at hroute
    have hside : side.opposite.bookSide r.reverse.srcIsBase = side.bookSide r.srcIsBase :=
      side.bookSide_opposite r.srcIsBase
    simp only [prices, hr, hroute, Option.map_some, r.passes_reverse, r.base_reverse,
      r.quote_reverse, hside]
    split
    · generalize cache.readBook now m.scope r.base.address r.quote.address
        (side.bookSide r.srcIsBase) = read
      obtain ⟨book, left⟩ := read
      cases book with
      | error e => cases e <;> rfl
      | ok book =>
        cases book with
        | nil => rfl
        | cons level levels =>
          simp only [m.quoteOn_reverse]
          cases m.quoteOn r side (level :: levels) amounts <;> rfl
    · rfl

def firstToken : Token := ⟨"0x1111111111111111111111111111111111111111", "A", "A", "", 6, ""⟩

def secondToken : Token := ⟨"0x2222222222222222222222222222222222222222", "B", "B", "", 2, ""⟩

def smallTokens : TokenDirectory := .ofTable (.ofList [("A", firstToken), ("B", secondToken)])

def smallPairs : PairDirectory := ⟨.ofList [("A/B", ⟨"A", "B", .zero⟩)]⟩

def small (scope : Scope) : Market := ⟨scope, 0, smallTokens, smallPairs⟩

def smallRoute : Route := ⟨firstToken, secondToken, ⟨"A", "B", .zero⟩, true⟩

def firstBid : Book := [⟨⟨150, 2, by decide, by decide⟩, ⟨4, 0, by decide, Nat.zero_le _⟩⟩]

def stocked (scope : Scope) : Cache :=
  Cache.empty.writeBook 0 scope firstToken.address secondToken.address .bids 1000 firstBid

/-- One token is sold for 1.50 of the other, and the payer of as much gets one. -/
theorem prices_reverse_sale :
    ((small ⟨"desk", 1⟩).prices (stocked ⟨"desk", 1⟩) 0 firstToken.address secondToken.address
      [⟨1000000, by decide⟩] .sell none).1 = .ok (some ⟨[⟨150, by decide⟩], 2, "A/B", "desk", 0,
        secondToken.address, firstToken.address, .bids⟩) ∧
    ((small ⟨"desk", 1⟩).prices (stocked ⟨"desk", 1⟩) 0 secondToken.address firstToken.address
      [⟨1000000, by decide⟩] .buy none).1 = .ok (some ⟨[⟨150, by decide⟩], 2, "A/B", "desk", 0,
        firstToken.address, secondToken.address, .bids⟩) := by
  have hsale : ((small ⟨"desk", 1⟩).prices (stocked ⟨"desk", 1⟩) 0 firstToken.address
      secondToken.address [⟨1000000, by decide⟩] .sell none).1 = .ok (some ⟨[⟨150, by decide⟩], 2,
        "A/B", "desk", 0, secondToken.address, firstToken.address, .bids⟩) := by
    decide +kernel
  have hfirst : (small ⟨"desk", 1⟩).tokens.ofAddress? firstToken.address = some firstToken := by
    decide +kernel
  have hsecond : (small ⟨"desk", 1⟩).tokens.ofAddress? secondToken.address = some secondToken := by
    decide +kernel
  have hone : ¬ ((small ⟨"desk", 1⟩).pairs.contains (Pair.nameOf "A" "B") = true ∧
      (small ⟨"desk", 1⟩).pairs.contains (Pair.nameOf "B" "A") = true) := by
    decide +kernel
  have hreverse := prices_reverse _ (stocked ⟨"desk", 1⟩) 0 hfirst hsecond hone
    [⟨1000000, by decide⟩] .sell none
  refine ⟨hsale, (congrArg Prod.fst hreverse).trans ?_⟩
  rw [Prod.map_fst, hsale]
  rfl

end Market
end QuoteDesk
