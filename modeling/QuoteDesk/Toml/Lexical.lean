import QuoteDesk.Binary64.Basic
import QuoteDesk.Text.Digits
import QuoteDesk.Toml.Value
/-!
The parts of a configuration file below its values: blanks, comments, line ends, texts, keys, numbers
and dates.

Every scanner gives what it has read and the characters that follow.
-/
namespace QuoteDesk.Toml

def isSpace (c : Char) : Bool := c == ' ' || c == '\t'

def skipSpace (cs : List Char) : List Char := cs.dropWhile isSpace

/-- Controls other than the tab stand neither in comments nor in texts. -/
def isPlain (c : Char) : Bool := c == '\t' || (0x20 ≤ c.toNat && c.toNat ≠ 0x7F)

def newline? : List Char → Option (List Char)
  | '\n' :: rest => some rest
  | '\r' :: '\n' :: rest => some rest
  | _ => none

def skipComment : List Char → List Char
  | '#' :: rest => rest.dropWhile isPlain
  | cs => cs

/-- The end of a line after its content: blanks, perhaps a comment, and a line end or the end of the
file. -/
def endLine? (cs : List Char) : Option (List Char) :=
  match skipComment (skipSpace cs) with
  | [] => some []
  | rest => newline? rest

/-- Skips blanks, line ends and comments between the items of an array. In a comment only a line end
or plain characters may follow. -/
def skipFill (inComment : Bool) : List Char → Option (List Char)
  | [] => if inComment then none else some []
  | '\n' :: rest => skipFill false rest
  | '\r' :: '\n' :: rest => skipFill false rest
  | c :: rest =>
    if inComment then (if isPlain c then skipFill true rest else none)
    else if isSpace c then skipFill false rest
    else if c = '#' then skipFill true rest
    else some (c :: rest)

def numbered? (ds : List Char) : Option Char := do
  let n := Text.ofDigits 16 (← ds.mapM Text.hexDigit?)
  if n.isValidChar then some (Char.ofNat n) else none

def escaped? : Char → Option Char
  | '"' => some '"'
  | '\\' => some '\\'
  | 'b' => some '\x08'
  | 't' => some '\t'
  | 'n' => some '\n'
  | 'f' => some '\x0c'
  | 'r' => some '\r'
  | _ => none

def quoteRun (quote : Char) (cs : List Char) : Nat := (cs.takeWhile (· == quote)).length

/-- The end of a text of several lines at a run of quotes: the last three close it, and up to two
before them belong to it. -/
def closeMulti (quote : Char) (cs : List Char) : Option (List Char × List Char) :=
  let n := quoteRun quote cs
  if n ≤ 5 then some (List.replicate (n - 3) quote, cs.drop n) else none

def consChar (c : Char) : Option (List Char × List Char) → Option (List Char × List Char) :=
  Option.map fun (s, rest) => (c :: s, rest)

/-- The rest of a text with escapes. In a text of several lines a backslash at the end of a line takes
with it all blanks and line ends that follow; `gap` says that they are being skipped. -/
def scanBasic (multi : Bool) : Bool → List Char → Option (List Char × List Char)
  | _, [] => none
  | gap, '\r' :: '\n' :: rest =>
    if gap then scanBasic multi true rest
    else if multi then consChar '\n' (scanBasic multi false rest) else none
  | gap, '\n' :: rest =>
    if gap then scanBasic multi true rest
    else if multi then consChar '\n' (scanBasic multi false rest) else none
  | _, '"' :: rest =>
    if !multi then some ([], rest)
    else if quoteRun '"' rest ≥ 2 then closeMulti '"' ('"' :: rest)
    else consChar '"' (scanBasic multi false rest)
  | _, '\\' :: 'u' :: a :: b :: c :: d :: rest =>
    match numbered? [a, b, c, d] with
    | some x => consChar x (scanBasic multi false rest)
    | none => none
  | _, '\\' :: 'U' :: a :: b :: c :: d :: e :: f :: g :: h :: rest =>
    match numbered? [a, b, c, d, e, f, g, h] with
    | some x => consChar x (scanBasic multi false rest)
    | none => none
  | _, '\\' :: c :: rest =>
    match escaped? c with
    | some x => consChar x (scanBasic multi false rest)
    | none =>
      if multi ∧ (newline? (skipSpace (c :: rest))).isSome then
        if c = '\r' ∨ isSpace c ∨ c = '\n' then scanBasic multi true rest else none
      else none
  | gap, c :: rest =>
    if gap ∧ isSpace c then scanBasic multi true rest
    else if isPlain c then consChar c (scanBasic multi false rest)
    else none

def scanLiteral (multi : Bool) : List Char → Option (List Char × List Char)
  | [] => none
  | '\r' :: '\n' :: rest => if multi then consChar '\n' (scanLiteral multi rest) else none
  | '\n' :: rest => if multi then consChar '\n' (scanLiteral multi rest) else none
  | '\'' :: rest =>
    if !multi then some ([], rest)
    else if quoteRun '\'' rest ≥ 2 then closeMulti '\'' ('\'' :: rest)
    else consChar '\'' (scanLiteral multi rest)
  | c :: rest => if isPlain c then consChar c (scanLiteral multi rest) else none

def dropFirstLine (cs : List Char) : List Char := (newline? cs).getD cs

def scanString : List Char → Option (List Char × List Char)
  | '"' :: '"' :: '"' :: rest => scanBasic true false (dropFirstLine rest)
  | '"' :: rest => scanBasic false false rest
  | '\'' :: '\'' :: '\'' :: rest => scanLiteral true (dropFirstLine rest)
  | '\'' :: rest => scanLiteral false rest
  | _ => none

def isBare (c : Char) : Bool := c.isAlphanum || c == '-' || c == '_'

def scanKeyPart : List Char → Option (String × List Char)
  | '"' :: rest => (scanBasic false false rest).map fun (s, r) => (String.ofList s, r)
  | '\'' :: rest => (scanLiteral false rest).map fun (s, r) => (String.ofList s, r)
  | cs =>
    let part := cs.takeWhile isBare
    if part.isEmpty then none else some (String.ofList part, cs.dropWhile isBare)

def scanKeyParts : Nat → List Char → Option (List String × List Char)
  | 0, _ => none
  | steps + 1, cs =>
    match scanKeyPart (skipSpace cs) with
    | none => none
    | some (part, rest) =>
      match skipSpace rest with
      | '.' :: rest => (scanKeyParts steps rest).map fun (parts, r) => (part :: parts, r)
      | rest => some ([part], rest)

def maxDepth : Nat := 80

/-- A key; it has fewer parts than the nesting allows. -/
def scanKey (cs : List Char) : Option (List String × List Char) :=
  (scanKeyParts (cs.length + 1) cs).filter fun r => r.1.length < maxDepth

/-- The digits that go on a number, with single underscores between digits. -/
def moreDigits (isDigit : Char → Bool) : List Char → List Char × List Char
  | [] => ([], [])
  | '_' :: c :: rest =>
    if isDigit c then
      let r := moreDigits isDigit rest
      (c :: r.1, r.2)
    else ([], '_' :: c :: rest)
  | c :: rest =>
    if isDigit c then
      let r := moreDigits isDigit rest
      (c :: r.1, r.2)
    else ([], c :: rest)

def scanDigits (isDigit : Char → Bool) : List Char → Option (List Char × List Char)
  | c :: rest =>
    if isDigit c then
      let r := moreDigits isDigit rest
      some (c :: r.1, r.2)
    else none
  | [] => none

def scanWhole : List Char → Option (List Char × List Char)
  | '0' :: rest => some (['0'], rest)
  | cs => scanDigits Char.isDigit cs

def scanSign : List Char → Bool × List Char
  | '-' :: rest => (true, rest)
  | '+' :: rest => (false, rest)
  | cs => (false, cs)

def integer? (n : Int) : Option Toml :=
  if minInteger ≤ n ∧ n ≤ maxInteger then some (.integer n) else none

def scanBased (base : Nat) (cs : List Char) : Option (Toml × List Char) := do
  let (ds, rest) ← scanDigits (fun c => (Text.digit? base c).isSome) cs
  let n ← integer? (Text.ofDigits base (ds.filterMap (Text.digit? base)))
  return (n, rest)

def scanInteger (cs : List Char) : Option (Toml × List Char) :=
  match cs with
  | '0' :: 'x' :: rest => scanBased 16 rest
  | '0' :: 'o' :: rest => scanBased 8 rest
  | '0' :: 'b' :: rest => scanBased 2 rest
  | _ => do
    let (negative, unsigned) := scanSign cs
    let (ds, rest) ← scanWhole unsigned
    let n : Int := Nat.ofDigitChars 10 ds 0
    return (← integer? (if negative then -n else n), rest)

/-- Whether a number above zero is within the range of floating-point numbers. -/
def isFinite (digits : List Char) (exponent : Int) : Bool :=
  let n := Nat.ofDigitChars 10 digits 0
  let size : Int := (Nat.toDigits 10 n).length + exponent
  n == 0 || size < 300 ||
    (size < 320 && (Binary64.ofRatio? false (n * pow10 exponent.toNat) (pow10 (-exponent).toNat)).isSome)

def scanFraction : List Char → Option (List Char × List Char)
  | '.' :: rest => scanDigits Char.isDigit rest
  | _ => none

def scanExponent : List Char → Option (Int × List Char)
  | c :: rest =>
    if c = 'e' ∨ c = 'E' then do
      let (negative, unsigned) := scanSign rest
      let (ds, rest) ← scanDigits Char.isDigit unsigned
      let n : Int := Nat.ofDigitChars 10 ds 0
      return (if negative then -n else n, rest)
    else none
  | [] => none

/-- A floating-point number. One too large is read if it is negative: then it counts as infinite. -/
def scanFloat (cs : List Char) : Option (Toml × List Char) :=
  let (negative, unsigned) := scanSign cs
  match unsigned with
  | 'i' :: 'n' :: 'f' :: rest => some (.float, rest)
  | 'n' :: 'a' :: 'n' :: rest => some (.float, rest)
  | _ => do
    let (whole, rest) ← scanWhole unsigned
    let (fraction, exponent, rest) ← match scanFraction rest, scanExponent rest with
      | some (fraction, rest), _ =>
        match scanExponent rest with
        | some (exponent, rest) => some (fraction, exponent, rest)
        | none => some (fraction, 0, rest)
      | none, some (exponent, rest) => some ([], exponent, rest)
      | none, none => none
    guard (negative ∨ isFinite (whole ++ fraction) (exponent - fraction.length))
    return (.float, rest)

def scanPart (count low high : Nat) (cs : List Char) : Option (Nat × List Char) :=
  let ds := cs.take count
  let n := Nat.ofDigitChars 10 ds 0
  if ds.length = count ∧ ds.all Char.isDigit ∧ low ≤ n ∧ n ≤ high then some (n, cs.drop count)
  else none

def expectChar (c : Char) : List Char → Option (List Char)
  | d :: rest => if d = c then some rest else none
  | [] => none

def isLeapYear (y : Nat) : Bool := y % 4 == 0 && (y % 100 != 0 || y % 400 == 0)

def daysOf (year month : Nat) : Nat :=
  if month = 2 then (if isLeapYear year then 29 else 28)
  else if month = 4 ∨ month = 6 ∨ month = 9 ∨ month = 11 then 30
  else 31

def scanDate (cs : List Char) : Option (List Char) := do
  let (year, rest) ← scanPart 4 0 9999 cs
  let (month, rest) ← scanPart 2 1 12 (← expectChar '-' rest)
  let (_, rest) ← scanPart 2 1 (daysOf year month) (← expectChar '-' rest)
  return rest

def scanSubseconds : List Char → Option (List Char)
  | '.' :: rest => if rest.takeWhile Char.isDigit = [] then none else some (rest.dropWhile Char.isDigit)
  | rest => some rest

def scanTime (cs : List Char) : Option (List Char) := do
  let (_, rest) ← scanPart 2 0 23 cs
  let (_, rest) ← scanPart 2 0 59 (← expectChar ':' rest)
  let (_, rest) ← scanPart 2 0 60 (← expectChar ':' rest)
  scanSubseconds rest

def scanOffset (cs : List Char) : Option (List Char) :=
  match cs with
  | 'Z' :: rest => some rest
  | 'z' :: rest => some rest
  | c :: rest =>
    if c = '+' ∨ c = '-' then do
      let (_, rest) ← scanPart 2 0 23 rest
      let (_, rest) ← scanPart 2 0 59 (← expectChar ':' rest)
      return rest
    else none
  | [] => none

def scanTimeOfDay (cs : List Char) : List Char :=
  match cs with
  | c :: rest =>
    if c = 'T' ∨ c = 't' ∨ c = ' ' then
      match scanTime rest with
      | some rest => (scanOffset rest).getD rest
      | none => c :: rest
    else c :: rest
  | [] => []

def scanMoment (cs : List Char) : Option (Toml × List Char) :=
  match scanDate cs with
  | some rest => some (.moment, scanTimeOfDay rest)
  | none => (scanTime cs).map (.moment, ·)

def scanNumber (cs : List Char) : Option (Toml × List Char) :=
  (scanMoment cs).or ((scanFloat cs).or (scanInteger cs))

end QuoteDesk.Toml
