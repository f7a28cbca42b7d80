import QuoteDesk.Desk.State
import QuoteDesk.Toml.Reader
import QuoteDesk.Toml.Writer
/-!
The configuration of a desk.

Every setting has a default, and unknown settings are ignored. A file that was asked for must be
there; without one the file at the usual place counts, and without that the defaults.
-/
namespace QuoteDesk

structure PricesConfig where
  intervalMs : Nat
  lifetimeSecs : Nat
  deriving DecidableEq

structure BlacklistConfig where
  enabled : Bool
  intervalMs : Nat
  deriving DecidableEq

structure Config where
  apiUrl : String
  network : UInt64
  dexKey : String
  maker : String
  apiKey : String
  requestTimeoutMs : Nat
  gasCost : UInt64
  isReplica : Bool
  signers : List String
  tokensIntervalMs : Nat
  pairsIntervalMs : Nat
  prices : PricesConfig
  blacklist : BlacklistConfig
  deriving DecidableEq

inductive ConfigError where
  | unreadable (reason : String)
  | malformed
  | badAddress (setting value : String) (cause : Address.ReadError)
  deriving DecidableEq

def ConfigError.message : ConfigError → String
  | .unreadable reason => "Failed to read config: " ++ reason
  | .malformed => "Failed to parse config"
  | .badAddress setting value cause =>
    "Invalid " ++ setting ++ " address " ++ value ++ ": " ++ cause.message

inductive FileContent where
  | missing
  | unreadable (reason : String)
  | text (s : String)

namespace Config

def defaultIntervalMs : Nat := 10000

def default : Config where
  apiUrl := "https://api.dexalot.com"
  network := 43114
  dexKey := "dexalot"
  maker := "0xd62f9E53Be8884C21f5aa523B3c7D6F9a0050af5"
  apiKey := ""
  requestTimeoutMs := 10000
  gasCost := 120000
  isReplica := false
  signers := []
  tokensIntervalMs := defaultIntervalMs
  pairsIntervalMs := defaultIntervalMs
  prices := ⟨defaultIntervalMs, 15⟩
  blacklist := ⟨true, defaultIntervalMs⟩

instance : Inhabited Config := ⟨default⟩

def textOf? : Toml → Option String
  | .string s => some s
  | _ => none

def boolOf? : Toml → Option Bool
  | .boolean b => some b
  | _ => none

def natOf? : Toml → Option Nat
  | .integer n => if 0 ≤ n then some n.toNat else none
  | _ => none

def wordOf? (v : Toml) : Option UInt64 := (natOf? v).map UInt64.ofNat

def textsOf? : Toml → Option (List String)
  | .array items => items.mapM textOf?
  | _ => none

/-- The settings of a group: a table, or an array of the values in declared order. A date is a table
that has none of the settings. -/
def group? (names : List String) : Toml → Option (List (String × Toml))
  | .table fields => some fields
  | .array items => some (names.zip items)
  | .moment => some []
  | _ => none

def setting {α : Type} (name : String) (read : Toml → Option α) (default : α)
    (fields : List (String × Toml)) : Option α :=
  match Toml.field? name fields with
  | none => some default
  | some v => read v

def intervalOf? (v : Toml) : Option Nat :=
  (group? ["interval_ms"] v).bind (setting "interval_ms" natOf? defaultIntervalMs)

def pricesOf? (v : Toml) : Option PricesConfig := do
  let fields ← group? ["interval_ms", "data_ttl_secs"] v
  let intervalMs ← setting "interval_ms" natOf? defaultIntervalMs fields
  let lifetimeSecs ← setting "data_ttl_secs" natOf? default.prices.lifetimeSecs fields
  return ⟨intervalMs, lifetimeSecs⟩

def blacklistOf? (v : Toml) : Option BlacklistConfig := do
  let fields ← group? ["enabled", "interval_ms"] v
  let enabled ← setting "enabled" boolOf? true fields
  let intervalMs ← setting "interval_ms" natOf? defaultIntervalMs fields
  return ⟨enabled, intervalMs⟩

def ofFields? (fields : List (String × Toml)) : Option Config := do
  let apiUrl ← setting "api_url" textOf? default.apiUrl fields
  let network ← setting "network" wordOf? default.network fields
  let dexKey ← setting "dex_key" textOf? default.dexKey fields
  let maker ← setting "maker" textOf? default.maker fields
  let apiKey ← setting "api_key" textOf? default.apiKey fields
  let requestTimeoutMs ← setting "request_timeout_ms" natOf? default.requestTimeoutMs fields
  let gasCost ← setting "gas_cost" wordOf? default.gasCost fields
  let isReplica ← setting "is_slave" boolOf? default.isReplica fields
  let signers ← setting "authorized_signers" textsOf? default.signers fields
  let tokensIntervalMs ← setting "tokens" intervalOf? default.tokensIntervalMs fields
  let pairsIntervalMs ← setting "pairs" intervalOf? default.pairsIntervalMs fields
  let prices ← setting "prices" pricesOf? default.prices fields
  let blacklist ← setting "blacklist" blacklistOf? default.blacklist fields
  return {
    apiUrl, network, dexKey, maker, apiKey, requestTimeoutMs, gasCost, isReplica, signers
    tokensIntervalMs, pairsIntervalMs, prices, blacklist }

def read (text : String) : Except ConfigError Config :=
  match (Toml.read text).bind ofFields? with
  | some c => .ok c
  | none => .error .malformed

def missingReason : String := "No such file or directory (os error 2)"

def readFile (content : FileContent) : Except ConfigError Config :=
  match content with
  | .missing => .error (.unreadable missingReason)
  | .unreadable reason => .error (.unreadable reason)
  | .text s => read s

def usualPath : String := "config/default.toml"

def pathFor (asked environment : Option String) : String :=
  asked.getD (environment.getD usualPath)

/-- Loads a configuration. `content` is what reading the file at `pathFor asked environment` gave. -/
def load (asked : Option String) (content : FileContent) : Except ConfigError Config :=
  match asked, content with
  | none, .missing => .ok default
  | _, content => readFile content

def writeNat (n : Nat) : String := Text.decimal n

/-- The text of a configuration: the single settings in declared order, then the groups. -/
def write (c : Config) : String :=
  String.join
    [Toml.writeKey "api_url" (Toml.writeString c.apiUrl),
     Toml.writeKey "network" (writeNat c.network.toNat),
     Toml.writeKey "dex_key" (Toml.writeString c.dexKey),
     Toml.writeKey "maker" (Toml.writeString c.maker),
     Toml.writeKey "api_key" (Toml.writeString c.apiKey),
     Toml.writeKey "request_timeout_ms" (writeNat c.requestTimeoutMs),
     Toml.writeKey "gas_cost" (writeNat c.gasCost.toNat),
     Toml.writeKey "is_slave" (Toml.writeBool c.isReplica),
     Toml.writeKey "authorized_signers" (Toml.writeStrings c.signers),
     Toml.writeHeader "tokens",
     Toml.writeKey "interval_ms" (writeNat c.tokensIntervalMs),
     Toml.writeHeader "pairs",
     Toml.writeKey "interval_ms" (writeNat c.pairsIntervalMs),
     Toml.writeHeader "prices",
     Toml.writeKey "interval_ms" (writeNat c.prices.intervalMs),
     Toml.writeKey "data_ttl_secs" (writeNat c.prices.lifetimeSecs),
     Toml.writeHeader "blacklist",
     Toml.writeKey "enabled" (Toml.writeBool c.blacklist.enabled),
     Toml.writeKey "interval_ms" (writeNat c.blacklist.intervalMs)]

def accountOf (setting value : String) : Except ConfigError Address :=
  (Address.read (Text.trim value)).mapError (.badAddress setting value)

def contract (c : Config) : Except ConfigError Address := accountOf "maker" c.maker

def signerAccounts (c : Config) : Except ConfigError (List Address) :=
  c.signers.mapM (accountOf "authorized_signers")

def scope (c : Config) : Scope := ⟨c.dexKey, c.network⟩

def settings (c : Config) : Except ConfigError Settings := do
  let contract ← c.contract
  return {
    scope := c.scope
    apiUrl := c.apiUrl
    apiKey := c.apiKey
    gasCost := c.gasCost
    contract
    isReplica := c.isReplica
    tokensInterval := c.tokensIntervalMs
    pairsInterval := c.pairsIntervalMs
    pricesInterval := c.prices.intervalMs
    bookLifetime := 1000 * c.prices.lifetimeSecs
    blacklistInterval := if c.blacklist.enabled then some c.blacklist.intervalMs else none }

end Config
end QuoteDesk
