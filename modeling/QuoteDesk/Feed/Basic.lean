/-!
The feeds: what the maker publishes for polling, and how a polling cycle can end.
-/
namespace QuoteDesk

inductive Feed where
  | tokens
  | pairs
  | prices
  | blacklist
  deriving DecidableEq

def Feed.name : Feed → String
  | .tokens => "tokens"
  | .pairs => "pairs"
  | .prices => "prices"
  | .blacklist => "blacklist"

/-- How a polling cycle ended: its payload was handled, its request failed, or its payload was
refused. -/
inductive CycleOutcome where
  | ok
  | requestError
  | validationError
  deriving DecidableEq

def CycleOutcome.name : CycleOutcome → String
  | .ok => "ok"
  | .requestError => "request_error"
  | .validationError => "validation_error"

structure PerFeed (α : Type) where
  tokens : α
  pairs : α
  prices : α
  blacklist : α
  deriving DecidableEq

namespace PerFeed

variable {α : Type}

def all (x : α) : PerFeed α := ⟨x, x, x, x⟩

def get (p : PerFeed α) : Feed → α
  | .tokens => p.tokens
  | .pairs => p.pairs
  | .prices => p.prices
  | .blacklist => p.blacklist

def set (p : PerFeed α) (x : α) : Feed → PerFeed α
  | .tokens => { p with tokens := x }
  | .pairs => { p with pairs := x }
  | .prices => { p with prices := x }
  | .blacklist => { p with blacklist := x }

def modify (p : PerFeed α) (f : α → α) (feed : Feed) : PerFeed α :=
  p.set (f (p.get feed)) feed

@[simp] theorem get_all (x : α) (feed : Feed) : (all x).get feed = x := by
  cases feed <;> rfl

@[simp] theorem get_set (p : PerFeed α) (x : α) (f g : Feed) :
    (p.set x f).get g = if f = g then x else p.get g := by
  cases f <;> cases g <;> rfl

@[simp] theorem set_get (p : PerFeed α) (f : Feed) : p.set (p.get f) f = p := by
  cases f <;> rfl

end PerFeed
end QuoteDesk
