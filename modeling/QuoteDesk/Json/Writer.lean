import QuoteDesk.Json.Value
import QuoteDesk.Text.Digits
/-!
Writing JSON text, without blanks.

In a string only the quote, the backslash and the characters below U+0020 are escaped.
-/
namespace QuoteDesk.Json

def escapeChar (c : Char) : List Char :=
  match c with
  | '"' => ['\\', '"']
  | '\\' => ['\\', '\\']
  | '\x08' => ['\\', 'b']
  | '\x0c' => ['\\', 'f']
  | '\n' => ['\\', 'n']
  | '\r' => ['\\', 'r']
  | '\t' => ['\\', 't']
  | c => if c.toNat < 0x20 then '\\' :: 'u' :: Text.hexDigits 4 c.toNat else [c]

def writeString (s : String) : List Char :=
  '"' :: (s.toList.flatMap escapeChar ++ ['"'])

def writeNumber : Number → List Char
  | .integer n => (if n < 0 then ['-'] else []) ++ Nat.toDigits 10 n.natAbs
  | .real x => x.print.toList

mutual

def writeChars : Json → List Char
  | .null => ['n', 'u', 'l', 'l']
  | .bool true => ['t', 'r', 'u', 'e']
  | .bool false => ['f', 'a', 'l', 's', 'e']
  | .number n => writeNumber n
  | .string s => writeString s
  | .array items => '[' :: writeItems items
  | .object fields => '\x7b' :: writeMembers fields

def writeItems : List Json → List Char
  | [] => [']']
  | [v] => writeChars v ++ [']']
  | v :: w :: rest => writeChars v ++ ',' :: writeItems (w :: rest)

def writeMembers : List (String × Json) → List Char
  | [] => ['\x7d']
  | [(n, v)] => writeString n ++ ':' :: (writeChars v ++ ['\x7d'])
  | (n, v) :: m :: rest => writeString n ++ ':' :: (writeChars v ++ ',' :: writeMembers (m :: rest))

end

def write (j : Json) : String := String.ofList j.writeChars

end QuoteDesk.Json
