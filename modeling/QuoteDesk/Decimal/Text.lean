import QuoteDesk.Decimal.Basic
import QuoteDesk.Text.Blank
/-!
Decimals as text.

Printing is positional with exactly as many fraction digits as the scale says. Reading takes plain
notation (a sign, digits with at most one point, underscores after the first digit) or scientific
notation. Fraction digits beyond what fits are rounded half up on the magnitude; whole digits that do
not fit are an error.
-/
namespace QuoteDesk.Decimal

def printChars (d : Decimal) : List Char :=
  let digits := Nat.toDigits 10 d.coefficient.natAbs
  let padded := List.replicate (d.scale + 1 - digits.length) '0' ++ digits
  let whole := padded.take (padded.length - d.scale)
  let fraction := padded.drop (padded.length - d.scale)
  (if d.isNegative then ['-'] else []) ++ whole ++ (if d.scale = 0 then [] else '.' :: fraction)

def print (d : Decimal) : String := String.ofList d.printChars

inductive ReadError where
  | empty
  | noDigits
  | secondPoint
  | leadingUnderscore
  | unknownCharacter
  | wholeOverflow
  | roundingOverflow
  | malformed
  | scaleTooLarge (scale : Nat)
  | tooLarge
  deriving DecidableEq

def ReadError.message : ReadError → String
  | .empty => "Invalid decimal: empty"
  | .noDigits => "Invalid decimal: no digits found"
  | .secondPoint => "Invalid decimal: two decimal points"
  | .leadingUnderscore => "Invalid decimal: must start lead with a number"
  | .unknownCharacter => "Invalid decimal: unknown character"
  | .wholeOverflow => "Invalid decimal: overflow from too many digits"
  | .roundingOverflow => "Invalid decimal: overflow from mantissa after rounding"
  | .malformed => "Failed to parse"
  | .scaleTooLarge scale =>
    "Scale exceeds the maximum precision allowed: " ++ toString scale ++ " > 28"
  | .tooLarge => "Number exceeds maximum value that can be represented."

/-- What has been read of an unsigned numeral. `full` is set once a fraction digit did not fit. -/
structure Numeral where
  magnitude : Nat
  scale : Nat
  point : Bool
  started : Bool
  full : Bool

namespace Numeral

def start : Numeral := ⟨0, 0, false, false, false⟩

/-- The first fraction digit that does not fit decides the rounding. -/
def close (n : Numeral) (digit : Nat) : Except ReadError Numeral :=
  let magnitude := if digit ≥ 5 then n.magnitude + 1 else n.magnitude
  if magnitude < bound then .ok { n with magnitude, full := true }
  else if n.scale = 0 then .error .roundingOverflow
  else .ok { n with magnitude := (magnitude + 4) / 10, scale := n.scale - 1, full := true }

def pushDigit (n : Numeral) (digit : Nat) : Except ReadError Numeral :=
  let magnitude := 10 * n.magnitude + digit
  if n.full then .ok n
  else if n.point then
    if n.scale < maxScale ∧ magnitude < bound then
      .ok { n with magnitude, scale := n.scale + 1, started := true }
    else n.close digit
  else if magnitude < bound then .ok { n with magnitude, started := true }
  else .error .wholeOverflow

def push (n : Numeral) (c : Char) : Except ReadError Numeral :=
  if c.isDigit then n.pushDigit (c.toNat - '0'.toNat)
  else if c = '.' then
    if n.point then .error .secondPoint else .ok { n with point := true }
  else if c = '_' then
    if n.started then .ok n else .error .leadingUnderscore
  else .error .unknownCharacter

def read (cs : List Char) : Except ReadError Numeral := do
  let n ← cs.foldlM push start
  if n.started then return n else throw .noDigits

end Numeral

def ofNumeral (negative : Bool) (n : Numeral) : Except ReadError Decimal :=
  match ofParts? (if negative then -(n.magnitude : Int) else n.magnitude) n.scale with
  | some d => .ok d
  | none => .error .tooLarge

def readPlainChars : List Char → Except ReadError Decimal
  | [] => .error .empty
  | '-' :: cs => Numeral.read cs >>= ofNumeral true
  | '+' :: cs => Numeral.read cs >>= ofNumeral false
  | cs => Numeral.read cs >>= ofNumeral false

def readExponent? (cs : List Char) : Option Nat :=
  let ds := match cs with
    | '+' :: r => r
    | _ => cs
  if ds ≠ [] ∧ ds.all Char.isDigit then
    let n := Nat.ofDigitChars 10 ds 0
    if n < UInt32.size then some n else none
  else none

def isExponentMark (c : Char) : Bool := c == 'e' || c == 'E'

def scaleDown (d : Decimal) (exponent : Nat) : Except ReadError Decimal :=
  if exponent > maxScale then .error (.scaleTooLarge exponent)
  else match ofParts? d.coefficient (d.scale + exponent) with
    | some r => .ok r
    | none => .error (.scaleTooLarge (d.scale + exponent))

/-- Moves the point of `d` to the right. A fraction that is used up leaves a whole number. -/
def scaleUp (d : Decimal) (exponent : Nat) : Except ReadError Decimal :=
  if exponent ≤ d.scale then
    match ofParts? d.coefficient (d.scale - exponent) with
    | some r => .ok r
    | none => .error .tooLarge
  else if exponent > maxScale then .error (.scaleTooLarge exponent)
  else match ofInt? (d.coefficient * (pow10 (exponent - d.scale) : Nat)) with
    | some r => .ok r
    | none => .error .tooLarge

def readScientificChars (cs : List Char) : Except ReadError Decimal :=
  let base := cs.takeWhile (!isExponentMark ·)
  match cs.dropWhile (!isExponentMark ·) with
  | [] => .error .malformed
  | _ :: exponent => do
    let d ← readPlainChars base
    match exponent with
    | '-' :: ds =>
      match readExponent? ds with
      | some e => d.scaleDown e
      | none => throw .malformed
    | ds =>
      match readExponent? ds with
      | some e => d.scaleUp e
      | none => throw .malformed

def readPlain (s : String) : Except ReadError Decimal := readPlainChars s.toList

def readScientific (s : String) : Except ReadError Decimal := readScientificChars s.toList

def readChars (cs : List Char) : Except ReadError Decimal :=
  if cs.any isExponentMark then readScientificChars cs else readPlainChars cs

def read (s : String) : Except ReadError Decimal := readChars (Text.trimChars s.toList)

end QuoteDesk.Decimal
