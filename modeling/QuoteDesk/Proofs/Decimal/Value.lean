import QuoteDesk.Decimal.Arithmetic
import Mathlib.Algebra.Order.Field.Basic
import Mathlib.Algebra.Order.Ring.Int
import Mathlib.Data.Rat.Cast.Order
import Mathlib.Tactic.Ring
/-!
Decimals as rational numbers, and rounding between bounds. What is taken away from a number is rounded
at the scale of that number or a finer one, so what is left is neither below zero nor above the
number, although it is rounded.
-/
namespace QuoteDesk

theorem roundHalfEven_nonneg {num : Int} (h : 0 ≤ num) (den : Nat) : 0 ≤ roundHalfEven num den := by
  have hq : 0 ≤ num / (den : Int) := Int.ediv_nonneg h (Int.natCast_nonneg den)
  unfold roundHalfEven
  simp only
  split
  · exact hq
  · split
    · omega
    · split <;> omega

theorem roundHalfEven_le {num n : Int} {den : Nat} (hden : 0 < den) (h : num ≤ n * den) :
    roundHalfEven num den ≤ n := by
  have hpos : (0 : Int) < den := Int.natCast_pos.mpr hden
  have hle : num / (den : Int) ≤ n := Int.ediv_le_of_le_mul hpos h
  have hsplit := Int.mul_ediv_add_emod num den
  have hup : num % (den : Int) ≠ 0 → num / (den : Int) + 1 ≤ n := by
    intro hr
    have hrem := Int.emod_nonneg num hpos.ne'
    by_contra hlt
    have heq : num / (den : Int) = n := by omega
    rw [heq, mul_comm] at hsplit
    omega
  unfold roundHalfEven
  simp only
  split
  · exact hle
  · next hlow =>
    have hr : num % (den : Int) ≠ 0 := by omega
    split
    · exact hup hr
    · split
      · exact hle
      · exact hup hr

namespace Decimal

variable {a b d : Decimal}

theorem value_eq_div (d : Decimal) : d.value = d.coefficient / d.unit :=
  Rat.mkRat_eq_div d.coefficient d.unit

theorem value_zero : zero.value = 0 := by
  rw [value_eq_div]
  exact zero_div _

theorem unit_cast_pos (d : Decimal) : (0 : ℚ) < d.unit := Nat.cast_pos.mpr d.unit_pos

theorem value_pos_iff : 0 < d.value ↔ 0 < d.coefficient := by
  rw [value_eq_div, div_pos_iff_of_pos_right d.unit_cast_pos, Int.cast_pos]

theorem value_nonneg_iff : 0 ≤ d.value ↔ 0 ≤ d.coefficient := by
  rw [value_eq_div, le_div_iff₀ d.unit_cast_pos, zero_mul, Int.cast_nonneg_iff]

theorem value_eq_natAbs_div (h : 0 ≤ d.value) :
    d.value = (d.coefficient.natAbs : ℚ) / d.unit := by
  rw [value_eq_div, Nat.cast_natAbs, abs_of_nonneg (value_nonneg_iff.mp h)]

theorem isPositive_iff : d.isPositive = true ↔ 0 < d.value := by
  rw [value_pos_iff, isPositive, decide_eq_true_eq]

theorem isNegative_iff : d.isNegative = true ↔ d.value < 0 := by
  rw [isNegative, decide_eq_true_eq, ← not_le, ← value_nonneg_iff, not_le]

theorem le_iff : le a b = true ↔ a.value ≤ b.value := by
  rw [value_eq_div, value_eq_div, div_le_div_iff₀ a.unit_cast_pos b.unit_cast_pos, le,
    decide_eq_true_eq]
  exact_mod_cast Iff.rfl

theorem min_eq (a b : Decimal) : min a b = a ∧ a.value ≤ b.value ∨ min a b = b := by
  unfold min
  split
  · next h => exact .inl ⟨rfl, le_iff.mp h⟩
  · exact .inr rfl

theorem value_min (a b : Decimal) : (min a b).value = Min.min a.value b.value := by
  unfold min
  split
  · next h => exact (min_eq_left (le_iff.mp h)).symm
  · next h => exact (min_eq_right (le_of_lt (not_le.mp (le_iff.not.mp h)))).symm

theorem exists_ofParts_of_le {c n : Int} {s : Nat} (hlow : 0 ≤ c) (hle : c ≤ n) (hn : n < bound)
    (hs : s ≤ maxScale) : ∃ d, ofParts? c s = some d := by
  have hfits : c.natAbs < bound ∧ s ≤ maxScale := ⟨by omega, hs⟩
  exact ⟨⟨c, s, hfits.1, hfits.2⟩, dif_pos hfits⟩

/-- A quotient is rounded at the first scale, from the largest one down, where the result fits. -/
theorem nearest?_of_fits {num : Int} {den s t : Nat} (hs : s ≤ t)
    (hfits : ∃ d, ofParts? (roundHalfEven (num * pow10 s) den) s = some d) :
    ∃ d, nearest? num den t = some d ∧ s ≤ d.scale ∧
      d.coefficient = roundHalfEven (num * pow10 d.scale) den := by
  have of_parts : ∀ {r : Nat}, s ≤ r → ∀ {d : Decimal},
      ofParts? (roundHalfEven (num * pow10 r) den) r = some d →
      s ≤ d.scale ∧ d.coefficient = roundHalfEven (num * pow10 d.scale) den := by
    intro r hr d hd
    obtain ⟨hc, hscale⟩ := ofParts?_eq_some_iff.mp hd
    rw [hscale]
    exact ⟨hr, hc⟩
  induction t with
  | zero =>
    obtain rfl : s = 0 := Nat.le_zero.mp hs
    obtain ⟨d, hd⟩ := hfits
    refine ⟨d, ?_, of_parts (Nat.le_refl 0) hd⟩
    rwa [pow10_zero, Nat.cast_one, mul_one] at hd
  | succ t ih =>
    unfold nearest?
    cases hd : ofParts? (roundHalfEven (num * pow10 (t + 1)) den) (t + 1) with
    | some d => exact ⟨d, rfl, of_parts hs hd⟩
    | none =>
      refine ih (Nat.le_of_lt_succ (Nat.lt_of_le_of_ne hs ?_))
      rintro rfl
      obtain ⟨d, hd'⟩ := hfits
      cases hd.symm.trans hd'

/-- On any scale not below that of the whole, what is left is rounded no higher than the coefficient of
the whole there. -/
theorem round_difference_le (hb : 0 ≤ b.value) (k : Nat) :
    roundHalfEven ((a.coefficient * b.unit - b.coefficient * a.unit) * pow10 (a.scale + k))
      (a.unit * b.unit) ≤ a.coefficient * pow10 k := by
  have hpart : 0 ≤ b.coefficient * a.unit :=
    Int.mul_nonneg (value_nonneg_iff.mp hb) (Int.natCast_nonneg _)
  apply roundHalfEven_le (Nat.mul_pos a.unit_pos b.unit_pos)
  calc (a.coefficient * b.unit - b.coefficient * a.unit) * (pow10 (a.scale + k) : Nat)
      ≤ a.coefficient * b.unit * (pow10 (a.scale + k) : Nat) :=
        Int.mul_le_mul_of_nonneg_right (by omega) (Int.natCast_nonneg _)
    _ = a.coefficient * pow10 k * ((a.unit * b.unit : Nat) : Int) := by
        rw [pow10_add, unit, unit]
        push_cast
        ring

theorem round_difference_nonneg (hle : b.value ≤ a.value) (s : Nat) :
    0 ≤ roundHalfEven ((a.coefficient * b.unit - b.coefficient * a.unit) * pow10 s)
      (a.unit * b.unit) := by
  have hwhole : b.coefficient * a.unit ≤ a.coefficient * b.unit :=
    of_decide_eq_true (le_iff.mpr hle)
  exact roundHalfEven_nonneg (Int.mul_nonneg (Int.sub_nonneg.mpr hwhole) (Int.natCast_nonneg _)) _

theorem exists_sub (hb : 0 ≤ b.value) (hle : b.value ≤ a.value) :
    ∃ d, a.sub? b = some d ∧ 0 ≤ d.value ∧ d.value ≤ a.value := by
  have hbound : a.coefficient < bound := by
    have := a.coefficient_lt
    omega
  have hfits := exists_ofParts_of_le (round_difference_nonneg hle a.scale)
    (by simpa [pow10_zero] using round_difference_le hb 0) hbound a.scale_le
  obtain ⟨d, hd, hscale, hc⟩ := nearest?_of_fits (Nat.le_max_left a.scale b.scale) hfits
  have hlow : 0 ≤ d.coefficient := hc ▸ round_difference_nonneg hle d.scale
  refine ⟨d, hd, value_nonneg_iff.mpr hlow, le_iff.mp (decide_eq_true ?_)⟩
  obtain ⟨k, hk⟩ := Nat.exists_eq_add_of_le hscale
  calc d.coefficient * a.unit
      ≤ a.coefficient * pow10 k * a.unit := by
        rw [hc, hk]
        exact Int.mul_le_mul_of_nonneg_right (round_difference_le hb k) (Int.natCast_nonneg _)
    _ = a.coefficient * d.unit := by
        rw [unit, unit, hk, pow10_add]
        push_cast
        ring

end Decimal
end QuoteDesk
