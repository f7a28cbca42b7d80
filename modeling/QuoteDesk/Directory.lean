import QuoteDesk.Table
import QuoteDesk.Token
/-!
Directories: the tokens and the pairs that are currently listed.

A directory is built as a whole from a listing and never changed in part. Tokens are found by the
symbol they are listed under and by address; pairs by name only, so a pair of two symbols is looked
for in both orders.

A map yields its entries in no order that could be relied on. The index of addresses goes through the
tokens in the order of their symbols, so of two tokens with one address it is the later one that is
found; `TokenDirectory.addresses_eq` fixes this order. Where it could matter, what is proved about look-ups
by address is stated for every order.
-/
namespace QuoteDesk

structure TokenDirectory where
  tokens : Table Token
  addresses : Table Token
  addresses_eq : addresses = Table.ofList (tokens.entries.map fun e => (e.2.address, e.2))

namespace TokenDirectory

def ofTable (tokens : Table Token) : TokenDirectory :=
  ⟨tokens, Table.ofList (tokens.entries.map fun e => (e.2.address, e.2)), rfl⟩

def empty : TokenDirectory := ofTable .empty

instance : Inhabited TokenDirectory := ⟨empty⟩

def ofSymbol? (d : TokenDirectory) (symbol : String) : Option Token := d.tokens.find? symbol

/-- The token at an address, whatever its letter case and the blanks around it. -/
def ofAddress? (d : TokenDirectory) (address : String) : Option Token :=
  d.addresses.find? (Text.normalize address)

def size (d : TokenDirectory) : Nat := d.tokens.size

def legs? (d : TokenDirectory) (p : Pair) : Option (Token × Token) := do
  let base ← d.ofSymbol? p.base
  let quote ← d.ofSymbol? p.quote
  return (base, quote)

end TokenDirectory

structure PairDirectory where
  pairs : Table Pair

namespace PairDirectory

def empty : PairDirectory := ⟨.empty⟩

instance : Inhabited PairDirectory := ⟨empty⟩

def named? (d : PairDirectory) (name : String) : Option Pair := d.pairs.find? name

def contains (d : PairDirectory) (name : String) : Bool := d.pairs.contains name

def find? (d : PairDirectory) (first second : String) : Option (Pair × Bool) :=
  match d.named? (Pair.nameOf first second) with
  | some p => some (p, true)
  | none => (d.named? (Pair.nameOf second first)).map (·, false)

def size (d : PairDirectory) : Nat := d.pairs.size

end PairDirectory
end QuoteDesk
