import QuoteDesk.Rounding
/-!
Decimal numbers with a bounded coefficient.

A number is an integer coefficient below 2^96 in absolute value over a power of ten up to 10^28. The
scale is part of the number, so 10.50 and 10.5 differ as data, while every comparison goes by value.
Zero has no sign. Numbers of this format may carry a negative zero; it can be left out, because reading a
text and calculating never give one, and because the conversion to token units, the only place that looks
at a sign, takes a negative zero as zero.
-/
namespace QuoteDesk

/-- The coefficient of a decimal number stays below this bound, two to the power of 96. -/
def Decimal.bound : Nat := 79228162514264337593543950336

def Decimal.maxScale : Nat := 28

structure Decimal where
  coefficient : Int
  scale : Nat
  coefficient_lt : coefficient.natAbs < Decimal.bound
  scale_le : scale ≤ Decimal.maxScale
  deriving DecidableEq

namespace Decimal

theorem ext_parts {a b : Decimal} (hc : a.coefficient = b.coefficient) (hs : a.scale = b.scale) :
    a = b := by
  cases a; cases b; simp_all

def ofParts? (coefficient : Int) (scale : Nat) : Option Decimal :=
  if h : coefficient.natAbs < bound ∧ scale ≤ maxScale then
    some ⟨coefficient, scale, h.1, h.2⟩
  else none

theorem ofParts?_self (d : Decimal) : ofParts? d.coefficient d.scale = some d := by
  simp [ofParts?, d.coefficient_lt, d.scale_le]

theorem ofParts?_eq_some_iff {c : Int} {s : Nat} {d : Decimal} :
    ofParts? c s = some d ↔ d.coefficient = c ∧ d.scale = s := by
  constructor
  · intro h
    unfold ofParts? at h
    split at h
    · injection h with h
      subst h
      exact ⟨rfl, rfl⟩
    · cases h
  · rintro ⟨rfl, rfl⟩
    exact ofParts?_self d

def zero : Decimal := ⟨0, 0, by decide, by decide⟩

instance : Inhabited Decimal := ⟨zero⟩

def unit (d : Decimal) : Nat := pow10 d.scale

theorem unit_pos (d : Decimal) : 0 < d.unit := pow10_pos d.scale

def value (d : Decimal) : Rat := mkRat d.coefficient d.unit

def isZero (d : Decimal) : Bool := d.coefficient == 0

def isNegative (d : Decimal) : Bool := decide (d.coefficient < 0)

def isPositive (d : Decimal) : Bool := decide (0 < d.coefficient)

/-- Order by value: both coefficients are brought to the common denominator. -/
def le (a b : Decimal) : Bool :=
  decide (a.coefficient * b.unit ≤ b.coefficient * a.unit)

def lt (a b : Decimal) : Bool := !le b a

def min (a b : Decimal) : Decimal := if le a b then a else b

/-- The coefficient and the scale without the zeros at the end of the fraction. -/
def strip : Nat → Int → Int × Nat
  | 0, c => (c, 0)
  | s + 1, c => if c % 10 = 0 then strip s (c / 10) else (c, s + 1)

theorem natAbs_strip_le (s : Nat) (c : Int) : (strip s c).1.natAbs ≤ c.natAbs := by
  induction s generalizing c with
  | zero => exact Nat.le_refl _
  | succ s ih =>
    unfold strip
    split
    · have := ih (c / 10)
      omega
    · exact Nat.le_refl _

theorem strip_snd_le (s : Nat) (c : Int) : (strip s c).2 ≤ s := by
  induction s generalizing c with
  | zero => exact Nat.le_refl _
  | succ s ih =>
    unfold strip
    split
    · have := ih (c / 10)
      omega
    · exact Nat.le_refl _

def normalize (d : Decimal) : Decimal :=
  ⟨(strip d.scale d.coefficient).1, (strip d.scale d.coefficient).2,
    Nat.lt_of_le_of_lt (natAbs_strip_le _ _) d.coefficient_lt,
    Nat.le_trans (strip_snd_le _ _) d.scale_le⟩

def trunc (d : Decimal) : Decimal :=
  ⟨d.coefficient.tdiv d.unit, 0, by
    have h := Int.natAbs_tdiv_le_natAbs d.coefficient d.unit
    exact Nat.lt_of_le_of_lt h d.coefficient_lt, Nat.zero_le _⟩

/-- What `trunc` cuts off, with the sign and the scale of the number. -/
def fract (d : Decimal) : Decimal :=
  ⟨d.coefficient.tmod d.unit, d.scale, by
    have h : (d.coefficient.tmod d.unit).natAbs ≤ d.coefficient.natAbs := by
      rw [Int.natAbs_tmod]
      exact Nat.mod_le _ _
    exact Nat.lt_of_le_of_lt h d.coefficient_lt, d.scale_le⟩

def ofInt? (n : Int) : Option Decimal := ofParts? n 0

end Decimal
end QuoteDesk
