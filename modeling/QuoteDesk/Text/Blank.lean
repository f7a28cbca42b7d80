/-!
Blank characters and the normal form of an address text.

Trimming takes the characters with the White_Space property off both ends of a text. Lowering maps
the 26 capital letters of ASCII and leaves every other character alone. Both together give the form
in which addresses are compared and stored.
-/
namespace QuoteDesk.Text

/-- The code points with the White_Space property, as closed ranges. -/
def blankRanges : List (Nat × Nat) :=
  [(0x09, 0x0D), (0x20, 0x20), (0x85, 0x85), (0xA0, 0xA0), (0x1680, 0x1680), (0x2000, 0x200A),
   (0x2028, 0x2029), (0x202F, 0x202F), (0x205F, 0x205F), (0x3000, 0x3000)]

def isBlank (c : Char) : Bool :=
  blankRanges.any fun r => r.1 ≤ c.toNat && c.toNat ≤ r.2

def trimChars (cs : List Char) : List Char :=
  ((cs.dropWhile isBlank).reverse.dropWhile isBlank).reverse

def trim (s : String) : String :=
  String.ofList (trimChars s.toList)

def lowerChars (cs : List Char) : List Char :=
  cs.map Char.toLower

def lower (s : String) : String :=
  String.ofList (lowerChars s.toList)

/-- The form of an address text that serves as identity and as a part of cache keys. -/
def normalize (s : String) : String :=
  lower (trim s)

def dropTrailing (c : Char) (s : String) : String :=
  String.ofList (s.toList.reverse.dropWhile (· == c)).reverse

theorem toList_trim (s : String) : (trim s).toList = trimChars s.toList := by
  simp [trim]

theorem toList_lower (s : String) : (lower s).toList = lowerChars s.toList := by
  simp [lower]

theorem toList_normalize (s : String) :
    (normalize s).toList = lowerChars (trimChars s.toList) := by
  simp [normalize, toList_lower, toList_trim]

end QuoteDesk.Text
