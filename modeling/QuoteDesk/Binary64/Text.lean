import QuoteDesk.Binary64.Basic
/-!
Binary floating-point numbers as decimal text with the fewest digits that read back.

The numbers that round to a given one form an interval. For 1, 2, up to 17 digits the two neighbours
of the number on that decimal grid are tested; the first grid with a hit gives the digits, the nearer
one of two hits.
-/
namespace QuoteDesk.Binary64

/-- A number above zero and the ends of the interval that rounds to it, as multiples of one power of
ten. -/
structure Span where
  value : Nat
  low : Nat
  high : Nat
  places : Nat
  closed : Bool

/-- The gap below a power of two is half as wide as the gap above it. -/
def span (x : Binary64) : Span :=
  let q := x.exponent - 2
  let unit := Nat.pow 2 q.toNat * Nat.pow 5 (-q).toNat
  let below := if x.significand = leastNormal ∧ minExponent < x.exponent then 1 else 2
  ⟨4 * x.significand * unit, (4 * x.significand - below) * unit, (4 * x.significand + 2) * unit,
    (-q).toNat, x.significand % 2 = 0⟩

def Span.contains (s : Span) (n : Nat) : Bool :=
  if s.closed then s.low ≤ n && n ≤ s.high else s.low < n && n < s.high

/-- The multiple of `grid` in the interval that is nearest to the number, as a multiplier. -/
def Span.onGrid? (s : Span) (grid : Nat) : Option Nat :=
  let f := s.value / grid
  let r := s.value % grid
  match s.contains (f * grid), s.contains ((f + 1) * grid) with
  | false, false => none
  | true, false => some f
  | false, true => some (f + 1)
  | true, true => some (if 2 * r < grid ∨ (2 * r = grid ∧ f % 2 = 0) then f else f + 1)

def digits (x : Binary64) : Nat × Int :=
  if x.significand = 0 then (0, 0)
  else
    let s := x.span
    let size := (Nat.toDigits 10 s.value).length
    let found := (List.range 17).findSome? fun n =>
      (s.onGrid? (pow10 (size - (n + 1)))).map fun d =>
        let e : Int := ((size - (n + 1) : Nat) : Int) - (s.places : Int)
        if d = pow10 (n + 1) then (1, e + (n + 1 : Nat)) else (d, e)
    found.getD (s.value, -(s.places : Int))

def pointed (ds : List Char) (places : Nat) : List Char :=
  let padded := List.replicate (places + 1 - ds.length) '0' ++ ds
  padded.take (padded.length - places) ++ '.' :: padded.drop (padded.length - places)

def signChars (x : Binary64) : List Char := if x.negative then ['-'] else []

/-- Positional notation at any size; a whole number has no point. -/
def printPlain (x : Binary64) : String :=
  let (n, e) := x.digits
  let ds := Nat.toDigits 10 n
  String.ofList <| x.signChars ++
    (if 0 ≤ e then (if n = 0 then ['0'] else ds ++ List.replicate e.toNat '0')
      else pointed ds (-e).toNat)

def exponentChars (e : Int) : List Char :=
  let ds := Nat.toDigits 10 e.natAbs
  (if e < 0 then '-' else '+') :: (if ds.length < 2 then '0' :: ds else ds)

/-- Positional notation from 10^(-5) to below 10^16, always with a point; else an exponent. -/
def print (x : Binary64) : String :=
  let (n, e) := x.digits
  let ds := Nat.toDigits 10 n
  let point : Int := (ds.length : Int) + e
  String.ofList <| x.signChars ++
    (if n = 0 then ['0', '.', '0']
      else if 0 ≤ e ∧ point ≤ 16 then ds ++ List.replicate e.toNat '0' ++ ['.', '0']
      else if -5 < point ∧ point ≤ 16 then pointed ds (-e).toNat
      else
        ds.take 1 ++ (if ds.length = 1 then [] else '.' :: ds.drop 1) ++ 'e' ::
          exponentChars (point - 1))

end QuoteDesk.Binary64
