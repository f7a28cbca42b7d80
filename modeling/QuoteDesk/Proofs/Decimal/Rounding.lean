import Mathlib.Tactic.Linarith
import QuoteDesk.Proofs.Decimal.Value
/-!
How far rounding moves a number. It moves it by at most half of the last place, so a quotient that is
nearer than that to a decimal becomes this decimal, and one that is itself a decimal is not moved.
-/
namespace QuoteDesk

variable {num n : Int} {den : Nat}

theorem two_mul_abs_round_sub_le (hden : 0 < den) (num : Int) :
    2 * |roundHalfEven num den * den - num| ≤ den := by
  have hpos : (0 : Int) < den := Int.natCast_pos.mpr hden
  have hsplit := Int.mul_ediv_add_emod num den
  have hlow := Int.emod_nonneg num hpos.ne'
  have hhigh := Int.emod_lt_of_pos num hpos
  have hdown : num / (den : Int) * den - num = -(num % den) := by
    rw [mul_comm]
    omega
  have hup : (num / (den : Int) + 1) * den - num = den - num % den := by
    rw [add_mul, one_mul, mul_comm]
    omega
  unfold roundHalfEven
  simp only
  split
  · rw [hdown, abs_neg, abs_of_nonneg hlow]
    omega
  · split
    · rw [hup, abs_of_nonneg (by omega)]
      omega
    · split
      · rw [hdown, abs_neg, abs_of_nonneg hlow]
        omega
      · rw [hup, abs_of_nonneg (by omega)]
        omega

theorem abs_round_sub_le (hden : 0 < den) (num : Int) :
    |(roundHalfEven num den : ℚ) - num / den| ≤ 1 / 2 := by
  have hpos : (0 : ℚ) < den := Nat.cast_pos.mpr hden
  have hle : 2 * |(roundHalfEven num den : ℚ) * den - num| ≤ den := by
    exact_mod_cast two_mul_abs_round_sub_le hden num
  rw [sub_div' hpos.ne', abs_div, abs_of_pos hpos, div_le_div_iff₀ hpos two_pos]
  linarith

/-- A quotient that is less than one half away from a whole number is rounded to it. -/
theorem round_eq_of_abs_sub_lt (hden : 0 < den) (h : |(num : ℚ) / den - n| < 1 / 2) :
    roundHalfEven num den = n := by
  have hle := abs_round_sub_le hden num
  have hsum : |(roundHalfEven num den : ℚ) - n| < 1 := by
    have htriangle := abs_sub_le (roundHalfEven num den : ℚ) (num / den) n
    linarith
  have hint : |roundHalfEven num den - n| < 1 := by exact_mod_cast hsum
  exact sub_eq_zero.mp (Int.abs_lt_one_iff.mp hint)

theorem round_eq_zero (hden : 0 < den) (h : 2 * |num| ≤ den) : roundHalfEven num den = 0 := by
  have hpos : (0 : Int) < den := Int.natCast_pos.mpr hden
  have hsplit := Int.mul_ediv_add_emod num den
  rcases lt_or_ge num 0 with hneg | hnonneg
  · rw [abs_of_neg hneg] at h
    have hq : num / (den : Int) = -1 := by
      rw [Int.ediv_eq_iff_of_pos hpos]
      omega
    rw [hq] at hsplit
    simp only [roundHalfEven, hq]
    split_ifs <;> omega
  · rw [abs_of_nonneg hnonneg] at h
    have hq : num / (den : Int) = 0 := Int.ediv_eq_zero_of_lt hnonneg (by omega)
    rw [hq] at hsplit
    simp only [roundHalfEven, hq]
    split_ifs <;> omega

namespace Decimal

variable {a b d e : Decimal} {t : Nat}

/-- A number with `k` places more than a quotient by a power of ten has that value. -/
theorem value_eq_div_iff {c : Int} {s k : Nat} (hscale : d.scale = s + k) :
    d.value = c / (pow10 s : Nat) ↔ d.coefficient = c * pow10 k := by
  have hs : ((pow10 s : Nat) : ℚ) ≠ 0 := Nat.cast_ne_zero.mpr (pow10_pos s).ne'
  have hunit : (d.unit : ℚ) = pow10 s * pow10 k := by
    rw [unit, hscale, pow10_add, Nat.cast_mul]
  rw [value_eq_div, div_eq_div_iff d.unit_cast_pos.ne' hs, hunit, mul_left_comm,
    mul_comm (d.coefficient : ℚ), mul_right_inj' hs]
  exact_mod_cast Iff.rfl

theorem nearest?_eq_some (h : nearest? num den t = some d) :
    d.scale ≤ t ∧ d.coefficient = roundHalfEven (num * pow10 d.scale) den := by
  induction t with
  | zero =>
    obtain ⟨hc, hscale⟩ := ofParts?_eq_some_iff.mp h
    rw [hscale, pow10_zero, Nat.cast_one, mul_one]
    exact ⟨le_refl 0, hc⟩
  | succ t ih =>
    unfold nearest? at h
    split at h
    · next d' hd =>
      obtain rfl := Option.some.inj h
      obtain ⟨hc, hscale⟩ := ofParts?_eq_some_iff.mp hd
      rw [hscale]
      exact ⟨le_refl _, hc⟩
    · obtain ⟨hscale, hc⟩ := ih h
      exact ⟨Nat.le_succ_of_le hscale, hc⟩

theorem abs_nearest_sub_le (hden : 0 < den) (h : nearest? num den t = some d) :
    |d.value - num / den| * (2 * d.unit) ≤ 1 := by
  have hround := abs_round_sub_le hden (num * pow10 d.scale)
  have hmove : (d.value - num / den) * d.unit = d.coefficient - num * d.unit / den := by
    rw [sub_mul, value_eq_div, div_mul_cancel₀ _ d.unit_cast_pos.ne', div_mul_eq_mul_div]
  rw [← (nearest?_eq_some h).2, Int.cast_mul, Int.cast_natCast] at hround
  rw [mul_left_comm, ← abs_of_pos d.unit_cast_pos, ← abs_mul, hmove]
  exact (le_div_iff₀' two_pos).mp hround

/-- A quotient that is nearer to a decimal than half of the last place is rounded to it on every scale
in between. -/
theorem round_eq_of_close (hden : 0 < den) {k : Nat} (hk : e.scale + k ≤ t)
    (hclose : |(num : ℚ) / den - e.value| * (2 * pow10 t) < 1) :
    roundHalfEven (num * pow10 (e.scale + k)) den = e.coefficient * pow10 k := by
  have hpos : (0 : ℚ) < pow10 (e.scale + k) := Nat.cast_pos.mpr (pow10_pos _)
  have hle : ((pow10 (e.scale + k) : Nat) : ℚ) ≤ pow10 t :=
    Nat.cast_le.mpr (Nat.pow_le_pow_right (by decide) hk)
  have hvalue : e.value * pow10 (e.scale + k) = (e.coefficient * pow10 k : Int) := by
    have hunit : ((pow10 e.scale : Nat) : ℚ) ≠ 0 := e.unit_cast_pos.ne'
    rw [value_eq_div, unit, pow10_add]
    push_cast
    rw [div_mul_eq_mul_div, mul_left_comm, mul_div_cancel_left₀ _ hunit]
  apply round_eq_of_abs_sub_lt hden
  rw [← hvalue, Int.cast_mul, Int.cast_natCast, mul_div_right_comm, ← sub_mul, abs_mul,
    abs_of_pos hpos, lt_div_iff₀ two_pos, mul_assoc]
  calc |(num : ℚ) / den - e.value| * (pow10 (e.scale + k) * 2)
      ≤ |(num : ℚ) / den - e.value| * (2 * pow10 t) := by
        apply mul_le_mul_of_nonneg_left _ (abs_nonneg _)
        linarith
    _ < 1 := hclose

theorem nearest?_of_close (hden : 0 < den) (hscale : e.scale ≤ t)
    (hclose : |(num : ℚ) / den - e.value| * (2 * pow10 t) < 1) :
    ∃ d, nearest? num den t = some d ∧ d.value = e.value := by
  have hfits : ∃ d, ofParts? (roundHalfEven (num * pow10 e.scale) den) e.scale = some d := by
    have hround := round_eq_of_close hden (k := 0) hscale hclose
    rw [pow10_zero, Nat.cast_one, mul_one, add_zero] at hround
    exact ⟨e, hround ▸ ofParts?_self e⟩
  obtain ⟨d, hd, hlow, hc⟩ := nearest?_of_fits hscale hfits
  obtain ⟨k, hk⟩ := Nat.exists_eq_add_of_le hlow
  have hle : e.scale + k ≤ t := hk ▸ (nearest?_eq_some hd).1
  rw [hk, round_eq_of_close hden hle hclose] at hc
  exact ⟨d, hd, ((value_eq_div_iff hk).mpr hc).trans e.value_eq_div.symm⟩

/-- What is at most half of the last place vanishes. -/
theorem nearest?_of_small (hden : 0 < den) (ht : t ≤ maxScale)
    (hsmall : |(num : ℚ) / den| * (2 * pow10 t) ≤ 1) :
    ∃ d, nearest? num den t = some d ∧ d.value = 0 := by
  have hround : roundHalfEven (num * pow10 t) den = 0 := by
    apply round_eq_zero hden
    have hpos : (0 : ℚ) < den := Nat.cast_pos.mpr hden
    rw [abs_div, abs_of_pos hpos, div_mul_eq_mul_div, div_le_one hpos] at hsmall
    have hint : |num| * (2 * pow10 t) ≤ (den : Int) := by exact_mod_cast hsmall
    rwa [abs_mul, Nat.abs_cast, mul_left_comm]
  have hfits : ∃ d, ofParts? (roundHalfEven (num * pow10 t) den) t = some d := by
    rw [hround]
    exact ⟨⟨0, t, by decide, ht⟩, ofParts?_eq_some_iff.mpr ⟨rfl, rfl⟩⟩
  obtain ⟨d, hd, hlow, hc⟩ := nearest?_of_fits (le_refl t) hfits
  refine ⟨d, hd, ?_⟩
  rw [value_eq_div, hc, le_antisymm (nearest?_eq_some hd).1 hlow, hround, Int.cast_zero, zero_div]

theorem product_eq (a b : Decimal) :
    ((a.coefficient * b.coefficient : Int) : ℚ) / (a.unit * b.unit : Nat) = a.value * b.value := by
  rw [value_eq_div, value_eq_div, div_mul_div_comm]
  push_cast
  rfl

theorem quotient_eq (hb : b.value ≠ 0) :
    ((b.coefficient.sign * a.coefficient * b.unit : Int) : ℚ) / (b.coefficient.natAbs * a.unit : Nat) =
      a.value / b.value := by
  have hc : (b.coefficient : ℚ) ≠ 0 := by
    rw [value_eq_div] at hb
    exact left_ne_zero_of_mul hb
  have hsign : (b.coefficient.sign : ℚ) * b.coefficient = b.coefficient.natAbs := by
    rw [Nat.cast_natAbs]
    exact_mod_cast Int.sign_mul_self_eq_abs b.coefficient
  have habs : (b.coefficient.natAbs : ℚ) ≠ 0 :=
    Nat.cast_ne_zero.mpr (Int.natAbs_ne_zero.mpr (Int.cast_ne_zero.mp hc))
  rw [value_eq_div, value_eq_div, div_div_div_eq]
  push_cast
  rw [div_eq_div_iff (mul_ne_zero habs a.unit_cast_pos.ne') (mul_ne_zero a.unit_cast_pos.ne' hc),
    ← hsign]
  ring

theorem exists_mul_of_small (h : |a.value * b.value| * (2 * pow10 maxScale) ≤ 1) :
    ∃ d, a.mul? b = some d ∧ d.value = 0 := by
  have hscale : Nat.min maxScale (a.scale + b.scale) ≤ maxScale := Nat.min_le_left _ _
  have hplaces : ((pow10 (Nat.min maxScale (a.scale + b.scale)) : Nat) : ℚ) ≤ pow10 maxScale :=
    Nat.cast_le.mpr (Nat.pow_le_pow_right (by decide) hscale)
  apply nearest?_of_small (Nat.mul_pos a.unit_pos b.unit_pos) hscale
  rw [product_eq]
  refine le_trans (mul_le_mul_of_nonneg_left ?_ (abs_nonneg _)) h
  linarith

theorem abs_mul_sub_le (h : a.mul? b = some d) :
    |d.value - a.value * b.value| * (2 * d.unit) ≤ 1 := by
  rw [← product_eq]
  exact abs_nearest_sub_le (Nat.mul_pos a.unit_pos b.unit_pos) h

theorem div?_eq_nearest? (hb : b.value ≠ 0) : 0 < b.coefficient.natAbs * a.unit ∧
    a.div? b = nearest? (b.coefficient.sign * a.coefficient * b.unit)
      (b.coefficient.natAbs * a.unit) maxScale := by
  have hc : b.coefficient ≠ 0 := by
    rintro hzero
    rw [value_eq_div, hzero, Int.cast_zero, zero_div] at hb
    exact hb rfl
  exact ⟨Nat.mul_pos (Int.natAbs_pos.mpr hc) a.unit_pos,
    if_neg (by simpa [isZero] using hc)⟩

theorem exists_div_of_close (hb : b.value ≠ 0)
    (h : |a.value / b.value - e.value| * (2 * pow10 maxScale) < 1) :
    ∃ d, a.div? b = some d ∧ d.value = e.value := by
  obtain ⟨hden, hdiv⟩ := div?_eq_nearest? (a := a) hb
  rw [hdiv]
  apply nearest?_of_close hden e.scale_le
  rwa [quotient_eq hb]

theorem abs_div_sub_le (hb : b.value ≠ 0) (h : a.div? b = some d) :
    |d.value - a.value / b.value| * (2 * d.unit) ≤ 1 := by
  obtain ⟨hden, hdiv⟩ := div?_eq_nearest? (a := a) hb
  rw [hdiv] at h
  rw [← quotient_eq hb]
  exact abs_nearest_sub_le hden h

end Decimal
end QuoteDesk
