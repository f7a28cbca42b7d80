import QuoteDesk.Cache.Books
import QuoteDesk.Directory
import QuoteDesk.Maker
import QuoteDesk.Metrics
import QuoteDesk.Order.Digest
import QuoteDesk.Signers
/-!
Everything that changes while a desk works: the directories, the shared cache, the maker it talks to,
the counters and the verifier of signatures.
-/
namespace QuoteDesk

/-- What a desk is set up with. Times are in milliseconds. -/
structure Settings where
  scope : Scope
  apiUrl : String
  apiKey : String
  gasCost : UInt64
  contract : Address
  /-- Whether somebody else polls and fills the cache. -/
  isReplica : Bool
  tokensInterval : Nat
  pairsInterval : Nat
  pricesInterval : Nat
  bookLifetime : Nat
  /-- Without an interval there is no deny feed. -/
  blacklistInterval : Option Nat
  deriving DecidableEq

namespace Settings

def domainOf (s : Settings) : Domain := ⟨s.scope.network, s.contract⟩

def feedRequest (s : Settings) (feed : Feed) : Request :=
  (Request.fetch (endpoint s.apiUrl feed.name)).withApiKey s.apiKey

def firmUrl (s : Settings) : String := endpoint s.apiUrl "firm"

def firmRequest (s : Settings) (r : QuoteRequest) : Request :=
  (Request.post s.firmUrl r.toJson).withApiKey s.apiKey

def interval (s : Settings) : Feed → Nat
  | .tokens => s.tokensInterval
  | .pairs => s.pairsInterval
  | .prices => s.pricesInterval
  | .blacklist => s.blacklistInterval.getD 0

end Settings

structure State where
  maker : Maker
  tokens : TokenDirectory
  pairs : PairDirectory
  cache : Cache
  metrics : Metrics
  verifier : Verifier

namespace State

def initial (verifier : Verifier) : State := ⟨.empty, .empty, .empty, .empty, .zero, verifier⟩

def replaceTokens (s : State) (d : TokenDirectory) : State :=
  { s with tokens := d, metrics := s.metrics.setTokenCount d.size }

def replacePairs (s : State) (d : PairDirectory) : State :=
  { s with pairs := d, metrics := s.metrics.setPairCount d.size }

def ask (s : State) (r : Request) : Except MakerError Json × State :=
  let (reply, maker) := s.maker.answer r
  (reply, { s with maker })

def publish (s : State) (now : Nat) (settings : Settings) (base quote : String) (side : BookSide)
    (book : Book) : State :=
  { s with
    cache := s.cache.writeBook now settings.scope base quote side settings.bookLifetime book
    metrics := s.metrics.countBook side }

def denied (s : State) (now : Nat) (scope : Scope) : Except CacheError (Table Unit) × State :=
  let (members, cache) := s.cache.members now scope.blacklistKey
  (members, { s with cache })

def isDenied (s : State) (now : Nat) (scope : Scope) (address : String) :
    Except CacheError Bool × State :=
  let (members, s) := s.denied now scope
  (members.map fun set =>
    set.entries.any fun e => Text.normalize e.1 == Text.normalize address, s)

def deny (s : State) (now : Nat) (scope : Scope) (address : String) :
    Except CacheError Unit × State :=
  let (done, cache) := s.cache.add now scope.blacklistKey (Text.normalize address)
  (done, { s with cache })

end State
end QuoteDesk
