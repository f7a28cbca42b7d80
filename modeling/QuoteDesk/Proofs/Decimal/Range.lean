import QuoteDesk.Proofs.Decimal.Exact
import QuoteDesk.Proofs.Decimal.Order
/-!
Results that stay in range. A result that is not below zero and not above the largest decimal is rounded to
some decimal, and to one that depends on its value alone.
-/
namespace QuoteDesk

theorem roundHalfEven_congr {num num' : Int} {den den' : Nat} (hden : 0 < den) (hden' : 0 < den')
    (h : num * den' = num' * den) : roundHalfEven num den = roundHalfEven num' den' :=
  le_antisymm (roundHalfEven_mono hden hden' h.le) (roundHalfEven_mono hden' hden h.ge)

namespace Decimal

variable {a a' b b' d : Decimal} {num num' : Int} {den den' : Nat}

theorem value_le (d : Decimal) : d.value ≤ bound - 1 := by
  have hc : d.coefficient ≤ (bound - 1 : Int) := by
    have := d.coefficient_lt
    omega
  have hunit : (1 : ℚ) ≤ d.unit := Nat.one_le_cast.mpr d.unit_pos
  have hlarge : (0 : ℚ) ≤ bound - 1 := by
    rw [sub_nonneg]
    exact Nat.one_le_cast.mpr (by decide)
  rw [value_eq_div, div_le_iff₀ d.unit_cast_pos]
  calc (d.coefficient : ℚ) ≤ bound - 1 := by exact_mod_cast hc
    _ ≤ (bound - 1) * d.unit := le_mul_of_one_le_right hlarge hunit

theorem one_le_value_mul (h : 0 < d.value) : 1 ≤ d.value * pow10 maxScale := by
  have hc : (1 : ℚ) ≤ d.coefficient := by exact_mod_cast value_pos_iff.mp h
  have hunit : (d.unit : ℚ) ≤ pow10 maxScale :=
    Nat.cast_le.mpr (Nat.pow_le_pow_right (by decide) d.scale_le)
  rw [value_eq_div, div_mul_eq_mul_div, le_div_iff₀ d.unit_cast_pos, one_mul]
  exact hunit.trans (le_mul_of_one_le_left (Nat.cast_nonneg _) hc)

theorem exists_nearest_of_le (hden : 0 < den) (hnum : 0 ≤ num)
    (hle : (num : ℚ) / den ≤ bound - 1) (t : Nat) : ∃ d, nearest? num den t = some d := by
  have hwhole : roundHalfEven (num * pow10 0) den ≤ bound - 1 := by
    apply roundHalfEven_le hden
    rw [div_le_iff₀ (Nat.cast_pos.mpr hden)] at hle
    rw [pow10_zero, Nat.cast_one, mul_one]
    exact_mod_cast hle
  obtain ⟨d, hd, -⟩ := nearest?_of_fits (Nat.zero_le t) (exists_ofParts_of_le
    (roundHalfEven_nonneg (Int.mul_nonneg hnum (Int.natCast_nonneg _)) den) hwhole (sub_one_lt _)
    (Nat.zero_le _))
  exact ⟨d, hd⟩

theorem exists_add_of_le (ha : 0 ≤ a.value) (hb : 0 ≤ b.value) (h : a.value + b.value ≤ bound - 1) :
    ∃ d, a.add? b = some d := by
  refine exists_nearest_of_le (Nat.mul_pos a.unit_pos b.unit_pos) (Int.add_nonneg ?_ ?_)
    ((sum_eq a b).trans_le h) _
  · exact Int.mul_nonneg (value_nonneg_iff.mp ha) (Int.natCast_nonneg _)
  · exact Int.mul_nonneg (value_nonneg_iff.mp hb) (Int.natCast_nonneg _)

theorem exists_mul_of_le (ha : 0 ≤ a.value) (hb : 0 ≤ b.value) (h : a.value * b.value ≤ bound - 1) :
    ∃ d, a.mul? b = some d :=
  exists_nearest_of_le (Nat.mul_pos a.unit_pos b.unit_pos)
    (Int.mul_nonneg (value_nonneg_iff.mp ha) (value_nonneg_iff.mp hb)) ((product_eq a b).trans_le h) _

theorem exists_div_of_le (ha : 0 ≤ a.value) (hb : 0 < b.value) (h : a.value / b.value ≤ bound - 1) :
    ∃ d, a.div? b = some d := by
  obtain ⟨hden, hdiv⟩ := div?_eq_nearest? (a := a) hb.ne'
  rw [hdiv]
  refine exists_nearest_of_le hden ?_ ((quotient_eq hb.ne').trans_le h) _
  rw [Int.sign_eq_one_of_pos (value_pos_iff.mp hb), one_mul]
  exact Int.mul_nonneg (value_nonneg_iff.mp ha) (Int.natCast_nonneg _)

theorem nearest?_congr (hden : 0 < den) (hden' : 0 < den')
    (h : (num : ℚ) / den = num' / den') (t : Nat) : nearest? num den t = nearest? num' den' t := by
  have hcross : num * den' = num' * den := by
    rw [div_eq_div_iff (Nat.cast_ne_zero.mpr hden.ne') (Nat.cast_ne_zero.mpr hden'.ne')] at h
    exact_mod_cast h
  have hrounds : ∀ s : Nat,
      roundHalfEven (num * pow10 s) den = roundHalfEven (num' * pow10 s) den' := by
    intro s
    apply roundHalfEven_congr hden hden'
    rw [mul_right_comm, hcross, mul_right_comm]
  induction t with
  | zero =>
    have hwhole := hrounds 0
    rw [pow10_zero, Nat.cast_one, mul_one, mul_one] at hwhole
    rw [nearest?, nearest?, hwhole]
  | succ t ih => rw [nearest?, nearest?, hrounds, ih]

theorem div?_congr (ha : a.value = a'.value) (hb : b.value = b'.value) (hne : b.value ≠ 0) :
    a.div? b = a'.div? b' := by
  obtain ⟨hden, hdiv⟩ := div?_eq_nearest? (a := a) hne
  obtain ⟨hden', hdiv'⟩ := div?_eq_nearest? (a := a') (hb ▸ hne)
  rw [hdiv, hdiv']
  apply nearest?_congr hden hden'
  rw [quotient_eq hne, quotient_eq (hb ▸ hne), ha, hb]

end Decimal
end QuoteDesk
