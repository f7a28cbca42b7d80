import QuoteDesk.Bytes
import QuoteDesk.Text.Blank
/-!
Unsigned words of 256 bits and amounts of 128 bits.

A word is read from digits in base 10 or 16. Underscores are skipped, no digit at all denotes zero.
Base 10 is scanned from the left, base 16 from the right; the first thing wrong in that order is
reported.
-/
namespace QuoteDesk

abbrev Word.size : Nat :=
  115792089237316195423570985008687907853269984665640564039457584007913129639936

abbrev Units.size : Nat := 340282366920938463463374607431768211456

structure Word where
  val : Nat
  val_lt : val < Word.size
  deriving DecidableEq

structure Units where
  val : Nat
  val_lt : val < Units.size
  deriving DecidableEq

namespace Units

def ofNat? (n : Nat) : Option Units :=
  if h : n < size then some ⟨n, h⟩ else none

def zero : Units := ⟨0, by decide⟩

instance : Inhabited Units := ⟨zero⟩

def print (u : Units) : String := Text.decimal u.val

end Units

namespace Word

def ofNat? (n : Nat) : Option Word :=
  if h : n < size then some ⟨n, h⟩ else none

def zero : Word := ⟨0, by decide⟩

instance : Inhabited Word := ⟨zero⟩

def ofUInt64 (n : UInt64) : Word :=
  ⟨n.toNat, Nat.lt_trans n.toNat_lt (by decide)⟩

def ofUnits (u : Units) : Word :=
  ⟨u.val, Nat.lt_trans u.val_lt (by decide)⟩

def print (w : Word) : String := Text.decimal w.val

def toBytes (w : Word) : Bytes := Bytes.ofNat 32 w.val

inductive ReadError where
  | badDigit (c : Char)
  | tooLarge
  deriving DecidableEq

def ReadError.message : ReadError → String
  | .badDigit c => "invalid digit: " ++ String.ofList [c]
  | .tooLarge => "the value is too large to fit the target type"

def pushDecimal (n : Nat) (c : Char) : Except ReadError Nat :=
  if c = '_' then .ok n
  else match Text.digit? 10 c with
    | none => .error (.badDigit c)
    | some d => if 10 * n + d < size then .ok (10 * n + d) else .error .tooLarge

/-- The number of digits in base 16 and the place of the next one to the left. -/
structure Places where
  sum : Nat
  place : Nat

def pushHex (p : Places) (c : Char) : Except ReadError Places :=
  if c = '_' then .ok p
  else match Text.digit? 16 c with
    | none => .error (.badDigit c)
    | some d =>
      let sum := p.sum + d * Nat.pow 16 p.place
      if sum < size then .ok ⟨sum, p.place + 1⟩ else .error .tooLarge

def ofChecked (n : Nat) : Except ReadError Word :=
  match ofNat? n with
  | some w => .ok w
  | none => .error .tooLarge

def readDecimal (cs : List Char) : Except ReadError Word := do
  ofChecked (← cs.foldlM pushDecimal 0)

def readHex (cs : List Char) : Except ReadError Word := do
  ofChecked (← cs.reverse.foldlM pushHex ⟨0, 0⟩).sum

/-- The bytes of a text without blanks around it: base 16 after `0x` or `0X`, else base 10. -/
def readChars : List Char → Except ReadError Word
  | '0' :: 'x' :: cs => readHex cs
  | '0' :: 'X' :: cs => readHex cs
  | cs => readDecimal cs

def read (s : String) : Except ReadError Word := readChars (Text.byteChars s)

end Word
end QuoteDesk
