import QuoteDesk.Text.Hidden
/-!
Texts and characters between quotes.

The quote itself and the backslash are escaped, a few controls have letters of their own, and a
character that would not show is written by its number in base 16.
-/
namespace QuoteDesk.Text

def hexNumber (n : Nat) : List Char := Nat.toDigits 16 n

def quoteChar (quote : Char) (c : Char) : List Char :=
  if c = quote ∨ c = '\\' then ['\\', c]
  else if c = '\x00' then ['\\', '0']
  else if c = '\t' then ['\\', 't']
  else if c = '\n' then ['\\', 'n']
  else if c = '\r' then ['\\', 'r']
  else if isHidden c then ['\\', 'u', '\x7b'] ++ hexNumber c.toNat ++ ['\x7d']
  else [c]

def quoted (s : String) : String :=
  String.ofList ('"' :: (s.toList.flatMap (quoteChar '"') ++ ['"']))

def quotedChar (c : Char) : String :=
  String.ofList ('\'' :: (quoteChar '\'' c ++ ['\'']))

end QuoteDesk.Text
