import QuoteDesk.Desk.State
import QuoteDesk.Feed.Runner
import QuoteDesk.Listing
/-!
What the desk does with its four feeds.

Tokens and pairs replace their directory as a whole; replacing the pairs restarts the polling of
prices. Prices are stored side by side for the pairs that are listed with both tokens known when the
payload comes in; a side without levels is left alone. Denied addresses are added one by one.
-/
namespace QuoteDesk

inductive FeedAction where
  | replaceTokens (d : TokenDirectory)
  | replacePairs (d : PairDirectory)
  | publish (base quote : String) (side : BookSide) (book : Book)
  | deny (address : String)

namespace FeedAction

def publishSides (base quote : Token) (b : TwoSided) : List FeedAction :=
  [BookSide.bids, .asks].filterMap fun side =>
    if (b.side side).isEmpty then none
    else some (.publish base.address quote.address side (b.side side))

def ofPrices (s : State) (t : Table TwoSided) : List FeedAction :=
  t.entries.flatMap fun e =>
    match (s.pairs.named? e.1).bind s.tokens.legs? with
    | some (base, quote) => publishSides base quote e.2
    | none => []

def ofBody (s : State) (body : Json) : Feed → Except ListingError (List FeedAction)
  | .tokens => (Listing.tokens body).map fun t =>
    [.replaceTokens (.ofTable (t.mapValues TokenEntry.toToken))]
  | .pairs => (Listing.pairs body).map fun t => [.replacePairs ⟨t⟩]
  | .prices => (Listing.prices body).map (ofPrices s)
  | .blacklist => (Listing.blacklist body).map fun as => as.map .deny

def perform (settings : Settings) (a : FeedAction) (now : Nat) (s : State) : State :=
  match a with
  | .replaceTokens d => s.replaceTokens d
  | .replacePairs d => s.replacePairs d
  | .publish base quote side book => s.publish now settings base quote side book
  | .deny address => (s.deny now settings.scope address).2

def restarts : FeedAction → Option Feed
  | .replacePairs _ => some .prices
  | _ => none

end FeedAction

namespace State

def receive (settings : Settings) (feed : Feed) (s : State) :
    CycleOutcome × List FeedAction × State :=
  let (reply, s) := s.ask (settings.feedRequest feed)
  let s := { s with metrics := s.metrics.countReply feed }
  match reply with
  | .error _ => (.requestError, [], s)
  | .ok body =>
    match FeedAction.ofBody s body feed with
    | .error _ => (.validationError, [], s)
    | .ok todo => (.ok, todo, s)

end State

namespace Settings

def behaviour (settings : Settings) : Behaviour State FeedAction where
  interval := settings.interval
  delay feed s := s.maker.delayAt (settings.feedRequest feed).url
  receive := State.receive settings
  pause _ := 0
  perform := FeedAction.perform settings
  restarts := FeedAction.restarts
  settle feed outcome s := { s with metrics := s.metrics.countCycle feed outcome }

/-- The feeds that are polled without being asked for by another one. -/
def polledFeeds (settings : Settings) : List Feed :=
  [.tokens, .pairs] ++ if settings.blacklistInterval.isSome then [.blacklist] else []

def feeds (settings : Settings) : List Feed :=
  [.tokens, .pairs, .prices] ++ if settings.blacklistInterval.isSome then [.blacklist] else []

end Settings
end QuoteDesk
