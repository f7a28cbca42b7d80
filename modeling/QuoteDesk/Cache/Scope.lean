import QuoteDesk.Book.Basic
import QuoteDesk.Text.Digits
import QuoteDesk.Token
/-!
The keys under which one desk on one network keeps its data in a shared cache.

Keys are lower-case texts of parts joined by underscores.
-/
namespace QuoteDesk

def BookSide.cacheKey (side : BookSide) (base quote : String) : String :=
  base ++ "_" ++ quote ++ "_" ++ side.name

structure Scope where
  dexKey : String
  network : UInt64
  deriving DecidableEq

namespace Scope

def networkText (s : Scope) : String := Text.decimal s.network.toNat

def key (s : Scope) (raw : String) : String :=
  Text.lower (s.dexKey ++ "_" ++ s.networkText ++ "_" ++ raw)

/-- The key of one side of the book of two token addresses. -/
def bookKey (s : Scope) (base quote : String) (side : BookSide) : String :=
  s.key (side.cacheKey (Text.normalize base) (Text.normalize quote))

def blacklistKey (s : Scope) : String :=
  Text.lower (s.networkText ++ "_" ++ s.dexKey ++ "_blacklist")

end Scope

def poolName (dexKey src dest : String) : String :=
  Text.lower (dexKey ++ "_" ++ src ++ "_" ++ dest)

end QuoteDesk
