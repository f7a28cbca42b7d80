import QuoteDesk.Json.Reader
/-!
Records in JSON.

A record is an object with named fields or an array of the field values in declared order. Names that
are not declared are ignored; values past the last declared field are an error. A case of an
enumeration is its name, or an object with that name as the only field and null as its value.
-/
namespace QuoteDesk.Json

/-- Whether a record may do without a field. A `listed` field may be absent from an object but not
from an array. -/
inductive Presence where
  | required
  | listed
  | optional
  deriving DecidableEq

abbrev Shape := List (String × Presence)

def record? (shape : Shape) : Json → Option (List (String × Json))
  | .object fields =>
    if shape.all fun p => p.2 ≠ .required || (field? p.1 fields).isSome then some fields else none
  | .array items =>
    if items.length ≤ shape.length ∧ (shape.drop items.length).all (·.2 = .optional) then
      some (List.zipWith (fun p v => (p.1, v)) shape items)
    else none
  | _ => none

def caseName? : Json → Option String
  | .string name => some name
  | .object [(name, .null)] => some name
  | _ => none

def string? : Json → Option String
  | .string s => some s
  | _ => none

def items? : Json → Option (List Json)
  | .array items => some items
  | _ => none

def members? : Json → Option (List (String × Json))
  | .object fields => some fields
  | _ => none

def natUpTo? (limit : Nat) : Json → Option Nat
  | .number (.integer n) => if 0 ≤ n ∧ n.toNat ≤ limit then some n.toNat else none
  | _ => none

/-- A text in a field, or `default` where the record has no such field. -/
def stringField? (name : String) (default : Option String) (fields : List (String × Json)) :
    Option String :=
  match field? name fields with
  | some v => v.string?
  | none => default

end QuoteDesk.Json
