import QuoteDesk.Decimal.Text
import QuoteDesk.Json.Writer
import QuoteDesk.Json.Reader
/-!
One side of a pair's book: price levels, the best price first.

A book is published and cached as an array of pairs of a price and a quantity. Reading takes each of
them as a text or as a number; writing always writes texts, so that a written book keeps every scale.
-/
namespace QuoteDesk

inductive BookSide where
  | bids
  | asks
  deriving DecidableEq

def BookSide.name : BookSide → String
  | .bids => "bids"
  | .asks => "asks"

structure Level where
  price : Decimal
  quantity : Decimal
  deriving DecidableEq

abbrev Book := List Level

namespace Level

/-- A price or a quantity of a level, as a text in either notation or as a number. A number that is
not whole counts by its shortest digits. -/
def numberOf? : Json → Option Decimal
  | .string s => (Decimal.read s).toOption
  | .number (.integer n) => Decimal.ofInt? n
  | .number (.real x) => (Decimal.read x.printPlain).toOption
  | _ => none

def ofJson? : Json → Option Level
  | .array [price, quantity] => do
    let price ← numberOf? price
    let quantity ← numberOf? quantity
    return ⟨price, quantity⟩
  | _ => none

def toJson (l : Level) : Json :=
  .array [.string l.price.print, .string l.quantity.print]

end Level

namespace Book

def ofJson? : Json → Option Book
  | .array items => items.mapM Level.ofJson?
  | _ => none

def toJson (b : Book) : Json := .array (b.map Level.toJson)

def write (b : Book) : String := (toJson b).write

def read (s : String) : Option Book := (Json.read s).bind ofJson?

end Book

inductive LevelPart where
  | price
  | size
  deriving DecidableEq

structure BadNumber where
  part : LevelPart
  text : String
  cause : Decimal.ReadError
  deriving DecidableEq

def BadNumber.message (e : BadNumber) : String :=
  (match e.part with
    | .price => "Invalid price: "
    | .size => "Invalid size: ") ++ e.text ++ ": " ++ e.cause.message

def LevelPart.read (part : LevelPart) (s : String) : Except BadNumber Decimal :=
  (Decimal.read s).mapError (⟨part, s, ·⟩)

end QuoteDesk
