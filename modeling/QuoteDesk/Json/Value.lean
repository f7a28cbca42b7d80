import QuoteDesk.Binary64.Text
/-!
JSON values.

Integers that fit 64 bits, with or without a sign, stay integers; every other number is a binary
floating-point number. An object keeps its fields in the order of their first occurrence.
-/
namespace QuoteDesk

inductive Json.Number where
  | integer (n : Int)
  | real (x : Binary64)
  deriving DecidableEq

inductive Json where
  | null
  | bool (b : Bool)
  | number (n : Json.Number)
  | string (s : String)
  | array (items : List Json)
  | object (fields : List (String × Json))

namespace Json

instance : Inhabited Json := ⟨.null⟩

def minInteger : Int := -9223372036854775808

def maxInteger : Int := 18446744073709551615

def ofNat (n : Nat) : Json := .number (.integer n)

def field? (name : String) : List (String × Json) → Option Json
  | [] => none
  | (n, v) :: rest => if n = name then some v else field? name rest

/-- Sets a field: in its place if the object has it, else at the end. -/
def putField (name : String) (value : Json) : List (String × Json) → List (String × Json)
  | [] => [(name, value)]
  | (n, v) :: rest => if n = name then (n, value) :: rest else (n, v) :: putField name value rest

/-- The fields of an object from its members in written order: a later member overrides. -/
def fieldsOf (members : List (String × Json)) : List (String × Json) :=
  members.foldl (fun fields m => putField m.1 m.2 fields) []

end Json
end QuoteDesk
