import QuoteDesk.Config
import QuoteDesk.Desk.Feeds
import QuoteDesk.Order.Prepare
import QuoteDesk.Pricing
/-!
A desk: the feeds, indicative prices and the preparation of orders around one cache and one maker.
-/
namespace QuoteDesk

inductive LookupError where
  | unknownPair (name : String)
  | unknownToken (symbol : String)
  | book (e : BookError)
  deriving DecidableEq

def LookupError.message : LookupError → String
  | .unknownPair name => "Unknown pair: " ++ name
  | .unknownToken symbol => "Unknown token: " ++ symbol
  | .book (.cache e) => e.message
  | .book .unreadable => "JSON error"

inductive DeskError where
  | config (e : ConfigError)
  | lookup (e : LookupError)
  | price (e : CacheError)
  | prepare (e : PrepareError)

def DeskError.message : DeskError → String
  | .config e => "Configuration error: " ++ e.message
  | .lookup e => "Registry error: " ++ e.message
  | .price e => "Pricing error: Cache read failed: " ++ e.message
  | .prepare e => "Executor error: " ++ e.message

structure Desk where
  settings : Settings
  runner : Runner State FeedAction

namespace Desk

def setUp (c : Config) (verifier : Verifier) : Except ConfigError Desk := do
  let settings ← c.settings
  return ⟨settings, .initial (.initial verifier)⟩

def ofConfig (c : Config) : Except ConfigError Desk := do
  let accounts ← c.signerAccounts
  setUp c (.signers (.ofList accounts))

def state (d : Desk) : State := d.runner.world

def now (d : Desk) : Nat := d.runner.machine.now

def mapState (d : Desk) (f : State → State) : Desk := { d with runner := d.runner.mapWorld f }

def withState (d : Desk) (s : State) : Desk := d.mapState fun _ => s

def mapMachine (d : Desk) (f : Machine State FeedAction → Machine State FeedAction) : Desk :=
  { d with runner := d.runner.mapMachine f }

def market (d : Desk) : Market :=
  ⟨d.settings.scope, d.settings.gasCost, d.state.tokens, d.state.pairs⟩

/-- Starts polling, unless somebody else polls. Prices start with the first pairs. -/
def start (d : Desk) : Desk :=
  if d.settings.isReplica then d
  else d.mapMachine fun m => d.settings.polledFeeds.foldl Machine.start m

/-- Stops every feed; cycles that are under way go on to their end. -/
def stop (d : Desk) : Desk :=
  d.mapMachine fun m => d.settings.feeds.foldl Machine.stop m

def isPolling (d : Desk) : Bool :=
  d.runner.machine.isPolling .tokens || d.runner.machine.isPolling .pairs

def isPricesPolling (d : Desk) : Bool := d.runner.machine.isPolling .prices

def sleep (d : Desk) (ms : Nat) : Desk :=
  { d with runner := d.runner.sleep d.settings.behaviour ms }

def cycleAll (d : Desk) : List Feed → List (Feed × CycleOutcome) × Desk
  | [] => ([], d)
  | feed :: rest =>
    let (outcome, runner) := d.runner.call d.settings.behaviour feed
    let (outcomes, after) := cycleAll { d with runner } rest
    ((outcome.map (feed, ·)).toList ++ outcomes, after)

/-- Runs one cycle of every feed, in the order of their dependence. -/
def refresh (d : Desk) : List (Feed × CycleOutcome) × Desk := d.cycleAll d.settings.feeds

def prices (d : Desk) (src dest : String) (amounts : List Units) (side : SwapSide)
    (limit : Option (List String)) : Except PriceError (Option PriceQuote) × Desk :=
  let (answer, cache) := d.market.prices d.state.cache d.now src dest amounts side limit
  (answer, d.mapState ({ · with cache }))

def legsOf (d : Desk) (name : String) : Except LookupError (Token × Token) :=
  match Pair.splitName? name with
  | none => .error (.unknownPair name)
  | some (base, quote) =>
    match d.state.tokens.ofSymbol? base, d.state.tokens.ofSymbol? quote with
    | none, _ => .error (.unknownToken base)
    | _, none => .error (.unknownToken quote)
    | some base, some quote => .ok (base, quote)

def orderBook (d : Desk) (name : String) (side : BookSide) : Except LookupError Book × Desk :=
  match d.legsOf name with
  | .error e => (.error e, d)
  | .ok (base, quote) =>
    let (book, cache) :=
      d.state.cache.readBook d.now d.settings.scope base.address quote.address side
    (book.mapError .book, d.mapState ({ · with cache }))

def isDenied (d : Desk) (address : String) : Except PrepareError Bool × Desk :=
  let (answer, s) := d.state.isDenied d.now d.settings.scope address
  (answer.mapError .cache, d.withState s)

/-- Prepares a swap, waiting for the maker as long as it takes. `clock` is the time in seconds that
orders expire by. -/
def prepare (d : Desk) (swap : Swap) (clock : UInt64) :
    Except PrepareError PreparedOrder × Desk :=
  match swap.start d.settings d.state d.now with
  | (.error e, s) => (.error e, d.withState s)
  | (.ok p, s) =>
    let d := (d.withState s).sleep (s.maker.delayAt d.settings.firmUrl)
    let (answer, s) := p.complete d.settings d.state d.now clock
    (answer, d.withState s)

end Desk
end QuoteDesk
