import QuoteDesk.Cache.Basic
import QuoteDesk.Cache.Scope
/-!
Books in a cache.

A side that is absent or past its end reads as the empty book.
-/
namespace QuoteDesk

inductive BookError where
  | cache (e : CacheError)
  | unreadable
  deriving DecidableEq

namespace Cache

def bookOf : Except CacheError (Option String) → Except BookError Book
  | .error e => .error (.cache e)
  | .ok none => .ok []
  | .ok (some text) =>
    match Book.read text with
    | some book => .ok book
    | none => .error .unreadable

def readBook (c : Cache) (now : Nat) (scope : Scope) (base quote : String) (side : BookSide) :
    Except BookError Book × Cache :=
  let r := c.get now (scope.bookKey base quote side)
  (bookOf r.1, r.2)

def writeBook (c : Cache) (now : Nat) (scope : Scope) (base quote : String) (side : BookSide)
    (lifetime : Nat) (book : Book) : Cache :=
  c.put now (scope.bookKey base quote side) lifetime book.write

end Cache
end QuoteDesk
