import QuoteDesk.Json.Value
import QuoteDesk.Text.Digits
/-!
Reading JSON text.

Arrays and objects nest at most 127 deep. A number keeps as many leading digits as fit 64 bits; one
past the largest finite floating-point number is an error. A surrogate must be half of a pair.
-/
namespace QuoteDesk.Json

def isSpace (c : Char) : Bool := c == ' ' || c == '\n' || c == '\t' || c == '\r'

def skipSpace (cs : List Char) : List Char := cs.dropWhile isSpace

def hexFour? (a b c d : Char) : Option Nat := do
  let a ← Text.hexDigit? a
  let b ← Text.hexDigit? b
  let c ← Text.hexDigit? c
  let d ← Text.hexDigit? d
  return Text.ofDigits 16 [a, b, c, d]

def escaped? : Char → Option Char
  | '"' => some '"'
  | '\\' => some '\\'
  | '/' => some '/'
  | 'b' => some '\x08'
  | 'f' => some '\x0c'
  | 'n' => some '\n'
  | 'r' => some '\r'
  | 't' => some '\t'
  | _ => none

def isHighSurrogate (n : Nat) : Bool := 0xD800 ≤ n && n < 0xDC00

def isLowSurrogate (n : Nat) : Bool := 0xDC00 ≤ n && n < 0xE000

/-- The rest of a string literal after its opening quote: its characters and what follows. -/
def scanString : List Char → Option (List Char × List Char)
  | [] => none
  | '"' :: rest => some ([], rest)
  | '\\' :: 'u' :: a :: b :: c :: d :: rest =>
    match hexFour? a b c d with
    | none => none
    | some n =>
      if isHighSurrogate n then
        match rest with
        | '\\' :: 'u' :: e :: f :: g :: h :: rest =>
          match hexFour? e f g h with
          | none => none
          | some m =>
            if isLowSurrogate m then
              (scanString rest).map fun (s, r) =>
                (Char.ofNat (0x10000 + (n - 0xD800) * 0x400 + (m - 0xDC00)) :: s, r)
            else none
        | _ => none
      else if isLowSurrogate n then none
      else (scanString rest).map fun (s, r) => (Char.ofNat n :: s, r)
  | '\\' :: e :: rest =>
    match escaped? e with
    | none => none
    | some c => (scanString rest).map fun (s, r) => (c :: s, r)
  | c :: rest =>
    if c.toNat < 0x20 then none else (scanString rest).map fun (s, r) => (c :: s, r)

def takeDigits : Nat → List Char → Nat × List Char
  | n, [] => (n, [])
  | n, c :: cs =>
    let next := 10 * n + (c.toNat - '0'.toNat)
    if next < UInt64.size then takeDigits next cs else (n, c :: cs)

/-- The number of a numeral that has a fraction or an exponent or does not fit 64 bits. -/
def realOf? (negative : Bool) (whole fraction : List Char) (exponent : Int) :
    Option Number :=
  let (n, dropped) := takeDigits 0 whole
  let (n, unread) := takeDigits n fraction
  let places : Int := (dropped.length : Int) - ((fraction.length - unread.length : Nat) : Int)
  (Binary64.ofNumeral? negative n (places + exponent)).map .real

def integerOf? (negative : Bool) (whole : List Char) : Option Number :=
  let n := Nat.ofDigitChars 10 whole 0
  if negative then
    if n ≠ 0 ∧ minInteger ≤ -(n : Int) then some (.integer (-(n : Int)))
    else realOf? true whole [] 0
  else if (n : Int) ≤ maxInteger then some (.integer n)
  else realOf? false whole [] 0

/-- The digits after a point, if there is one; a point needs a digit. -/
def scanFraction : List Char → Option (Option (List Char) × List Char)
  | '.' :: rest =>
    let ds := rest.takeWhile Char.isDigit
    if ds = [] then none else some (some ds, rest.dropWhile Char.isDigit)
  | rest => some (none, rest)

def scanExponentDigits (sign : Int) (cs : List Char) : Option (Option Int × List Char) :=
  let ds := cs.takeWhile Char.isDigit
  if ds = [] then none
  else some (some (sign * (Nat.ofDigitChars 10 ds 0 : Int)), cs.dropWhile Char.isDigit)

/-- The exponent after its mark, if there is one; a mark needs a digit. -/
def scanExponent : List Char → Option (Option Int × List Char)
  | c :: rest =>
    if c = 'e' ∨ c = 'E' then
      match rest with
      | '+' :: rest => scanExponentDigits 1 rest
      | '-' :: rest => scanExponentDigits (-1) rest
      | rest => scanExponentDigits 1 rest
    else some (none, c :: rest)
  | [] => some (none, [])

def scanUnsigned (negative : Bool) (cs : List Char) : Option (Number × List Char) :=
  let whole := cs.takeWhile Char.isDigit
  if whole = [] ∨ (whole.head? = some '0' ∧ whole.length ≠ 1) then none
  else do
    let (fraction, rest) ← scanFraction (cs.dropWhile Char.isDigit)
    let (exponent, rest) ← scanExponent rest
    let n ← match fraction, exponent with
      | none, none => integerOf? negative whole
      | _, _ => realOf? negative whole (fraction.getD []) (exponent.getD 0)
    return (n, rest)

def scanNumber : List Char → Option (Number × List Char)
  | '-' :: rest => scanUnsigned true rest
  | rest => scanUnsigned false rest

def expect? (word : List Char) (cs : List Char) : Option (List Char) :=
  if word.isPrefixOf cs then some (cs.drop word.length) else none

mutual

/-- A value and what follows it. The first argument bounds the steps, the second the nesting. -/
def scanValue : Nat → Nat → List Char → Option (Json × List Char)
  | 0, _, _ => none
  | steps + 1, depth, cs =>
    match skipSpace cs with
    | '"' :: rest => (scanString rest).map fun (s, r) => (.string (String.ofList s), r)
    | '[' :: rest =>
      if depth ≤ 1 then none
      else match skipSpace rest with
        | ']' :: rest => some (.array [], rest)
        | rest => (scanItems steps (depth - 1) rest).map fun (vs, r) => (.array vs, r)
    | '\x7b' :: rest =>
      if depth ≤ 1 then none
      else match skipSpace rest with
        | '\x7d' :: rest => some (.object [], rest)
        | rest =>
          (scanMembers steps (depth - 1) rest).map fun (ms, r) => (.object (fieldsOf ms), r)
    | 'n' :: rest => (expect? ['u', 'l', 'l'] rest).map fun r => (.null, r)
    | 't' :: rest => (expect? ['r', 'u', 'e'] rest).map fun r => (.bool true, r)
    | 'f' :: rest => (expect? ['a', 'l', 's', 'e'] rest).map fun r => (.bool false, r)
    | rest => (scanNumber rest).map fun (n, r) => (.number n, r)

def scanItems : Nat → Nat → List Char → Option (List Json × List Char)
  | 0, _, _ => none
  | steps + 1, depth, cs =>
    match scanValue steps depth cs with
    | none => none
    | some (v, rest) =>
      match skipSpace rest with
      | ',' :: rest => (scanItems steps depth rest).map fun (vs, r) => (v :: vs, r)
      | ']' :: rest => some ([v], rest)
      | _ => none

def scanMembers : Nat → Nat → List Char → Option (List (String × Json) × List Char)
  | 0, _, _ => none
  | steps + 1, depth, cs =>
    match skipSpace cs with
    | '"' :: rest =>
      match scanString rest with
      | none => none
      | some (name, rest) =>
        match skipSpace rest with
        | ':' :: rest =>
          match scanValue steps depth rest with
          | none => none
          | some (v, rest) =>
            match skipSpace rest with
            | ',' :: rest =>
              (scanMembers steps depth rest).map fun (ms, r) =>
                ((String.ofList name, v) :: ms, r)
            | '\x7d' :: rest => some ([(String.ofList name, v)], rest)
            | _ => none
        | _ => none
    | _ => none

end

def maxDepth : Nat := 128

def readChars (cs : List Char) : Option Json :=
  match scanValue (2 * cs.length + 2) maxDepth cs with
  | some (v, rest) => if skipSpace rest = [] then some v else none
  | none => none

def read (s : String) : Option Json := readChars s.toList

end QuoteDesk.Json
