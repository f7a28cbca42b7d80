/-!
Values of configuration files.

Floating-point numbers and dates keep only their kind, since no setting has a value of that kind.
-/
namespace QuoteDesk

inductive Toml where
  | string (s : String)
  | integer (n : Int)
  | float
  | boolean (b : Bool)
  | moment
  | array (items : List Toml)
  | table (fields : List (String × Toml))

namespace Toml

instance : Inhabited Toml := ⟨.table []⟩

def field? (name : String) : List (String × Toml) → Option Toml
  | [] => none
  | (n, v) :: rest => if n = name then some v else field? name rest

def minInteger : Int := -9223372036854775808

def maxInteger : Int := 9223372036854775807

end Toml
end QuoteDesk
