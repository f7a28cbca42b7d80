/-!
Digits and bytes of texts: reading a digit in a base, the value of a digit sequence, the UTF-8
bytes of a text, and a byte shown as the character with its number.
-/
namespace QuoteDesk.Text

def hexDigit? (c : Char) : Option Nat :=
  if '0' ≤ c ∧ c ≤ '9' then some (c.toNat - '0'.toNat)
  else if 'a' ≤ c ∧ c ≤ 'f' then some (c.toNat - 'a'.toNat + 10)
  else if 'A' ≤ c ∧ c ≤ 'F' then some (c.toNat - 'A'.toNat + 10)
  else none

def digit? (base : Nat) (c : Char) : Option Nat :=
  (hexDigit? c).filter (· < base)

def isHexDigit (c : Char) : Bool :=
  (hexDigit? c).isSome

def ofDigits (base : Nat) (ds : List Nat) : Nat :=
  ds.foldl (fun n d => base * n + d) 0

/-- Exactly `width` digits of `n` in base 16, in lower case, the most significant first. -/
def hexDigits : Nat → Nat → List Char
  | 0, _ => []
  | width + 1, n => hexDigits width (n / 16) ++ [Nat.digitChar (n % 16)]

/-- A character as a byte of ASCII, read without regard to what follows. -/
def byteChar (b : UInt8) : Char :=
  Char.ofNat b.toNat

def bytes (s : String) : List UInt8 :=
  s.toList.flatMap String.utf8EncodeChar

def byteChars (s : String) : List Char :=
  (bytes s).map byteChar

def decimal (n : Nat) : String :=
  String.ofList (Nat.toDigits 10 n)

def readNat? (s : String) : Option Nat :=
  let cs := s.toList
  if cs ≠ [] ∧ cs.all Char.isDigit then some (Nat.ofDigitChars 10 cs 0) else none

theorem readNat?_decimal (n : Nat) : readNat? (decimal n) = some n := by
  have h : ∀ c ∈ Nat.toDigits 10 n, c.isDigit = true := fun c hc =>
    Nat.isDigit_of_mem_toDigits (by decide) (by decide) hc
  simp [readNat?, decimal, Nat.toDigits_ne_nil, Nat.ofDigitChars_ten_toDigits]
  exact h

end QuoteDesk.Text
