import QuoteDesk.Text.Digits
/-!
Writing settings.

A text stands between double quotes with escapes; one with quotes or backslashes but without controls
stands between single quotes as it is, if the single quotes in it allow that. A text of several lines
takes triple quotes.
-/
namespace QuoteDesk.Toml

/-- How a text is quoted: on one line, on one line between triple quotes, or on several lines. -/
inductive QuoteStyle where
  | single
  | triple
  | lines
  deriving DecidableEq

def isControl (c : Char) : Bool := c.toNat < 0x20 || c.toNat == 0x7F

def longestRun (c : Char) (cs : List Char) : Nat :=
  (cs.foldl (fun (r : Nat × Nat) d =>
    if d = c then (r.1 + 1, max r.2 (r.1 + 1)) else (0, r.2)) (0, 0)).2

/-- Whether a text may stand as it is: something in it would need an escape, and nothing in it has
to have one. -/
def isLiteral (cs : List Char) : Bool :=
  cs.any (fun c => c == '"' || c == '\\') &&
    cs.all (fun c => !isControl c || c == '\t' || c == '\n') &&
    longestRun '\'' cs < 3 && cs.getLast? != some '\''

def quoteStyle (cs : List Char) : QuoteStyle :=
  if cs.contains '\n' then .lines
  else if isLiteral cs ∧ cs.contains '\'' then .triple
  else .single

def openQuote (quote : Char) : QuoteStyle → List Char
  | .single => [quote]
  | .triple => [quote, quote, quote]
  | .lines => [quote, quote, quote, '\n']

def closeQuote (quote : Char) : QuoteStyle → List Char
  | .single => [quote]
  | _ => [quote, quote, quote]

def upperHex (width n : Nat) : List Char := (Text.hexDigits width n).map Char.toUpper

def escapeChar (style : QuoteStyle) (c : Char) : List Char :=
  match c with
  | '\x08' => ['\\', 'b']
  | '\t' => ['\\', 't']
  | '\n' => if style = .lines then ['\n'] else ['\\', 'n']
  | '\x0c' => ['\\', 'f']
  | '\r' => ['\\', 'r']
  | '"' => ['\\', '"']
  | '\\' => ['\\', '\\']
  | c => if isControl c then ['\\', 'u'] ++ upperHex 4 c.toNat else [c]

def writeString (s : String) : String :=
  let cs := s.toList
  let style := quoteStyle cs
  String.ofList <|
    if isLiteral cs then openQuote '\'' style ++ cs ++ closeQuote '\'' style
    else openQuote '"' style ++ cs.flatMap (escapeChar style) ++ closeQuote '"' style

def writeBool (b : Bool) : String := if b then "true" else "false"

def writeStrings (ss : List String) : String := "[" ++ ", ".intercalate (ss.map writeString) ++ "]"

def writeKey (name value : String) : String := name ++ " = " ++ value ++ "\n"

def writeHeader (name : String) : String := "\n[" ++ name ++ "]\n"

end QuoteDesk.Toml
