import QuoteDesk.Address
import QuoteDesk.Book.Basic
import QuoteDesk.Feed.Basic
import QuoteDesk.Json.Record
import QuoteDesk.Table
import QuoteDesk.Token
/-!
What the maker publishes of each feed, as it is read and checked.

A listing is decoded from JSON and then checked as a whole, its entries in the order of their keys;
the first fault refuses all of it. A listing that does not decode is malformed.
-/
namespace QuoteDesk

structure TokenEntry where
  symbol : String
  name : String
  description : String
  address : String
  decimals : Nat
  kind : String
  deriving DecidableEq

structure TwoSided where
  bids : Book
  asks : Book
  deriving DecidableEq

inductive ListingFault where
  | badTokenAddress (key address : String)
  | emptySymbol (key : String)
  | missingLeg (name : String)
  | negativeLiquidity (name : String)
  | badLevel (name : String) (level : Level)
  | badAddress (address : String)
  deriving DecidableEq

def ListingFault.message : ListingFault → String
  | .badTokenAddress key address =>
    "token " ++ key ++ " has malformed address " ++ Text.quoted address
  | .emptySymbol key => "token " ++ key ++ " has empty symbol"
  | .missingLeg name => "pair " ++ name ++ " is missing base or quote"
  | .negativeLiquidity name => "pair " ++ name ++ " has negative liquidity"
  | .badLevel name level =>
    "pair " ++ name ++ " has invalid level [" ++ level.price.print ++ ", " ++
      level.quantity.print ++ "]"
  | .badAddress address => "malformed address " ++ Text.quoted address

inductive ListingError where
  | malformed (feed : Feed)
  | refused (feed : Feed) (fault : ListingFault)
  deriving DecidableEq

def ListingError.message : ListingError → String
  | .malformed feed => "Invalid " ++ feed.name ++ " response"
  | .refused feed fault => "Invalid " ++ feed.name ++ " response: " ++ fault.message

def isListedAddress (address : String) : Bool := Address.isHexText (Text.trim address)

namespace TokenEntry

def shape : Json.Shape :=
  [("symbol", .required), ("name", .required), ("description", .optional), ("address", .required),
   ("decimals", .required), ("type", .optional)]

def ofJson? (j : Json) : Option TokenEntry := do
  let fields ← j.record? shape
  let symbol ← Json.stringField? "symbol" none fields
  let name ← Json.stringField? "name" none fields
  let description ← Json.stringField? "description" (some "") fields
  let address ← Json.stringField? "address" none fields
  let decimals ← (Json.field? "decimals" fields).bind (Json.natUpTo? 255)
  let kind ← Json.stringField? "type" (some "") fields
  return ⟨symbol, name, description, address, decimals, kind⟩

def toToken (e : TokenEntry) : Token :=
  Token.create e.address e.symbol e.name e.description e.decimals e.kind

def fault? (key : String) (e : TokenEntry) : Option ListingFault :=
  if !isListedAddress e.address then some (.badTokenAddress key e.address)
  else if e.symbol.isEmpty then some (.emptySymbol key)
  else none

end TokenEntry

namespace Pair

def shape : Json.Shape :=
  [("base", .required), ("quote", .required), ("liquidityUSD", .optional)]

/-- A liquidity as a text in either notation, blanks not allowed, or as a number. -/
def liquidityOf? : Json → Option Decimal
  | .string s =>
    match Decimal.readPlain s with
    | .ok d => some d
    | .error _ => (Decimal.readScientific s).toOption
  | .number (.integer n) => Decimal.ofInt? n
  | .number (.real x) => (Decimal.readPlain x.printPlain).toOption
  | _ => none

def ofJson? (j : Json) : Option Pair := do
  let fields ← j.record? shape
  let base ← Json.stringField? "base" none fields
  let quote ← Json.stringField? "quote" none fields
  let liquidity ← match Json.field? "liquidityUSD" fields with
    | some v => liquidityOf? v
    | none => some .zero
  return ⟨base, quote, liquidity⟩

def fault? (name : String) (p : Pair) : Option ListingFault :=
  if p.base.isEmpty || p.quote.isEmpty then some (.missingLeg name)
  else if p.liquidity.isNegative then some (.negativeLiquidity name)
  else none

end Pair

/-- Whether a level may be published: a price above zero and a quantity not below it. -/
def Level.isSound (l : Level) : Bool := l.price.isPositive && !l.quantity.isNegative

namespace TwoSided

def side (b : TwoSided) : BookSide → Book
  | .bids => b.bids
  | .asks => b.asks

def ofJson? (j : Json) : Option TwoSided := do
  let fields ← j.record? [("bids", .required), ("asks", .required)]
  let bids ← (Json.field? "bids" fields).bind Book.ofJson?
  let asks ← (Json.field? "asks" fields).bind Book.ofJson?
  return ⟨bids, asks⟩

def fault? (name : String) (b : TwoSided) : Option ListingFault :=
  ((b.bids ++ b.asks).find? fun l => !l.isSound).map (.badLevel name)

end TwoSided

namespace Listing

def content? (name : String) (j : Json) : Option Json := do
  Json.field? name (← j.record? [(name, .required)])

def entries? {α : Type} (read : Json → Option α) (j : Json) : Option (Table α) := do
  let entries ← (← j.members?).mapM fun m => (read m.2).map (m.1, ·)
  return Table.ofList entries

/-- Decodes a listing keyed by names and checks its entries in the order of the names. -/
def keyed {α : Type} (feed : Feed) (read : Json → Option α)
    (fault? : String → α → Option ListingFault) (j : Json) : Except ListingError (Table α) :=
  match (content? feed.name j).bind (entries? read) with
  | none => .error (.malformed feed)
  | some t =>
    match t.entries.findSome? fun e => fault? e.1 e.2 with
    | some fault => .error (.refused feed fault)
    | none => .ok t

def tokens : Json → Except ListingError (Table TokenEntry) :=
  keyed .tokens TokenEntry.ofJson? TokenEntry.fault?

def pairs : Json → Except ListingError (Table Pair) :=
  keyed .pairs Pair.ofJson? Pair.fault?

def prices : Json → Except ListingError (Table TwoSided) :=
  keyed .prices TwoSided.ofJson? TwoSided.fault?

def blacklist (j : Json) : Except ListingError (List String) :=
  match (content? Feed.blacklist.name j).bind fun v => v.items?.bind (·.mapM Json.string?) with
  | none => .error (.malformed .blacklist)
  | some addresses =>
    match addresses.find? fun a => !isListedAddress a with
    | some a => .error (.refused .blacklist (.badAddress a))
    | none => .ok addresses

end Listing
end QuoteDesk
