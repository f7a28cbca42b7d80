import QuoteDesk.Keccak
/-!
Account addresses of 160 bits.

Reading takes 40 digits of base 16 in any letter case, after an optional mark. Writing puts a letter
in upper case where the hash of the lower-case digits has a digit of at least 8.
-/
namespace QuoteDesk

abbrev Address.size : Nat := 1461501637330902918203684832716283019655932542976

structure Address where
  val : Nat
  val_lt : val < Address.size
  deriving DecidableEq

namespace Address

instance : Inhabited Address := ⟨⟨0, by decide⟩⟩

/-- The address of a number, its bits from 160 on dropped. -/
def ofNat (n : Nat) : Address := ⟨n % size, Nat.mod_lt _ (by decide)⟩

/-- Why a text is not an address. A position counts bytes after the mark. -/
inductive ReadError where
  | oddLength
  | wrongLength
  | badCharacter (c : Char) (position : Nat)
  deriving DecidableEq

def ReadError.message : ReadError → String
  | .oddLength => "odd number of digits"
  | .wrongLength => "invalid string length"
  | .badCharacter c position =>
    "invalid character " ++ Text.quotedChar c ++ " at position " ++ Text.decimal position

def unmarked : List Char → List Char
  | '0' :: 'x' :: cs => cs
  | '0' :: 'X' :: cs => cs
  | cs => cs

def readChars (cs : List Char) : Except ReadError Address :=
  let ds := unmarked cs
  if ds.length % 2 ≠ 0 then .error .oddLength
  else if ds.length ≠ 40 then .error .wrongLength
  else match Hex.firstBad? 0 ds with
    | some (c, i) => .error (.badCharacter c i)
    | none => .ok (ofNat (Text.ofDigits 16 (ds.filterMap Text.hexDigit?)))

def read (s : String) : Except ReadError Address := readChars (Text.byteChars s)

def digits (a : Address) : List Char := Text.hexDigits 40 a.val

def nibbles (bs : Bytes) : List Nat := bs.flatMap fun b => [b.toNat / 16, b.toNat % 16]

def print (a : Address) : String :=
  let ds := a.digits
  let hash := Keccak.hash (ds.map fun c => UInt8.ofNat c.toNat)
  "0x" ++ String.ofList (List.zipWith (fun c n => if n ≥ 8 then c.toUpper else c) ds (nibbles hash))

/-- Whether a text is `0x` or `0X` and forty digits of base 16. -/
def isHexText (s : String) : Bool :=
  match s.toList with
  | '0' :: 'x' :: ds => ds.length == 40 && ds.all Text.isHexDigit
  | '0' :: 'X' :: ds => ds.length == 40 && ds.all Text.isHexDigit
  | _ => false

theorem isHexText_iff {s : String} : isHexText s = true ↔
    ∃ mark ds, (mark = 'x' ∨ mark = 'X') ∧ s.toList = '0' :: mark :: ds ∧ ds.length = 40 ∧
      ∀ c ∈ ds, Text.isHexDigit c = true := by
  constructor
  · intro h
    unfold isHexText at h
    split at h
    · next ds hs =>
      obtain ⟨hlen, hall⟩ := Bool.and_eq_true_iff.mp h
      exact ⟨'x', ds, .inl rfl, hs, eq_of_beq hlen, List.all_eq_true.mp hall⟩
    · next ds hs =>
      obtain ⟨hlen, hall⟩ := Bool.and_eq_true_iff.mp h
      exact ⟨'X', ds, .inr rfl, hs, eq_of_beq hlen, List.all_eq_true.mp hall⟩
    · cases h
  · rintro ⟨mark, ds, hmark, hs, hlen, hall⟩
    have hdigits : (ds.length == 40 && ds.all Text.isHexDigit) = true :=
      Bool.and_eq_true_iff.mpr ⟨beq_iff_eq.mpr hlen, List.all_eq_true.mpr hall⟩
    rcases hmark with rfl | rfl <;> rw [isHexText, hs] <;> exact hdigits

end Address
end QuoteDesk
