import QuoteDesk.Table
/-!
A cache of texts and of sets of texts.

A text is stored for a time and exists strictly before its end; a set stays until a text takes its
place. A slot past its end counts as absent and is dropped when a read comes across it: a read first
looks at the slot and then, as a second step, drops it. Times are in milliseconds.
-/
namespace QuoteDesk

inductive Content where
  | text (value : String)
  | members (set : Table Unit)

structure Slot where
  content : Content
  expiry : Option Nat

def Slot.isLive (s : Slot) (now : Nat) : Bool :=
  match s.expiry with
  | none => true
  | some expiry => now < expiry

inductive CacheError where
  | holdsSet (key : String)
  | holdsText (key : String)
  deriving DecidableEq

def CacheError.message : CacheError → String
  | .holdsSet key => "Cache error: " ++ key ++ " holds a set, not a value"
  | .holdsText key => "Cache error: " ++ key ++ " holds a value, not a set"

structure Cache where
  slots : Table Slot

namespace Cache

def empty : Cache := ⟨.empty⟩

instance : Inhabited Cache := ⟨empty⟩

inductive Sight where
  | absent
  | expired
  | live (content : Content)

def look (c : Cache) (now : Nat) (key : String) : Sight :=
  match c.slots.find? key with
  | none => .absent
  | some s => if s.isLive now then .live s.content else .expired

def drop (c : Cache) (key : String) : Cache := ⟨c.slots.erase key⟩

def afterSight (c : Cache) (key : String) : Sight → Cache
  | .expired => c.drop key
  | _ => c

def Sight.text? (key : String) : Sight → Except CacheError (Option String)
  | .live (.text value) => .ok (some value)
  | .live (.members _) => .error (.holdsSet key)
  | _ => .ok none

/-- The set that a read answers, empty where there is none. -/
def Sight.members? (key : String) : Sight → Except CacheError (Table Unit)
  | .live (.members set) => .ok set
  | .live (.text _) => .error (.holdsText key)
  | _ => .ok .empty

def get (c : Cache) (now : Nat) (key : String) : Except CacheError (Option String) × Cache :=
  ((c.look now key).text? key, c.afterSight key (c.look now key))

def members (c : Cache) (now : Nat) (key : String) : Except CacheError (Table Unit) × Cache :=
  ((c.look now key).members? key, c.afterSight key (c.look now key))

/-- Stores a text for `lifetime` milliseconds, whatever the slot held. -/
def put (c : Cache) (now : Nat) (key : String) (lifetime : Nat) (value : String) : Cache :=
  ⟨c.slots.insert key ⟨.text value, some (now + lifetime)⟩⟩

def add (c : Cache) (now : Nat) (key member : String) : Except CacheError Unit × Cache :=
  match c.look now key with
  | .live (.text _) => (.error (.holdsText key), c)
  | .live (.members set) =>
    (.ok (), ⟨c.slots.insert key ⟨.members (set.insert member ()), none⟩⟩)
  | _ => (.ok (), ⟨c.slots.insert key ⟨.members (Table.empty.insert member ()), none⟩⟩)

def size (c : Cache) (now : Nat) : Nat :=
  (c.slots.entries.filter fun e => e.2.isLive now).length

end Cache
end QuoteDesk
