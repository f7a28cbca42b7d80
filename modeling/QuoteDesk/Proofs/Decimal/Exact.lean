import QuoteDesk.Proofs.Decimal.Rounding
/-!
Results that are not rounded. A number with few enough places and digits is a decimal, and a sum, a
difference or a product that is a decimal is given as it is.
-/
namespace QuoteDesk

/-- The number is a multiple of ten to the power of minus `s`. -/
def HasPlaces (x : ℚ) (s : Nat) : Prop := ∃ c : Int, x = c / (pow10 s : Nat)

namespace HasPlaces

variable {x y : ℚ} {s t : Nat}

theorem zero (s : Nat) : HasPlaces 0 s := ⟨0, by rw [Int.cast_zero, zero_div]⟩

theorem add (hx : HasPlaces x s) (hy : HasPlaces y s) : HasPlaces (x + y) s := by
  obtain ⟨c, rfl⟩ := hx
  obtain ⟨c', rfl⟩ := hy
  exact ⟨c + c', by rw [Int.cast_add, add_div]⟩

theorem sub (hx : HasPlaces x s) (hy : HasPlaces y s) : HasPlaces (x - y) s := by
  obtain ⟨c, rfl⟩ := hx
  obtain ⟨c', rfl⟩ := hy
  exact ⟨c - c', by rw [Int.cast_sub, sub_div]⟩

theorem mul (hx : HasPlaces x s) (hy : HasPlaces y t) : HasPlaces (x * y) (s + t) := by
  obtain ⟨c, rfl⟩ := hx
  obtain ⟨c', rfl⟩ := hy
  exact ⟨c * c', by rw [pow10_add, Int.cast_mul, Nat.cast_mul, div_mul_div_comm]⟩

theorem mul_pow10 (hx : HasPlaces x s) (t : Nat) : HasPlaces (x * pow10 t) (s - t) := by
  have hpos : ∀ k, ((pow10 k : Nat) : ℚ) ≠ 0 := fun k => Nat.cast_ne_zero.mpr (pow10_pos k).ne'
  obtain ⟨c, rfl⟩ := hx
  rcases le_total s t with hle | hle
  · obtain ⟨k, rfl⟩ := Nat.exists_eq_add_of_le hle
    refine ⟨c * pow10 k, ?_⟩
    rw [Nat.sub_eq_zero_of_le hle, pow10_zero, Nat.cast_one, div_one, pow10_add, Nat.cast_mul,
      ← mul_assoc, div_mul_cancel₀ _ (hpos s), Int.cast_mul, Int.cast_natCast]
  · obtain ⟨k, rfl⟩ := Nat.exists_eq_add_of_le hle
    refine ⟨c, ?_⟩
    rw [Nat.add_sub_cancel_left, pow10_add, Nat.cast_mul, div_mul_eq_mul_div, mul_comm (c : ℚ),
      mul_div_mul_left _ _ (hpos t)]

end HasPlaces

namespace Decimal

variable {a b d e : Decimal} {num : Int} {den s t : Nat} {x y : ℚ}

theorem hasPlaces_value (h : d.scale ≤ s) : HasPlaces d.value s := by
  obtain ⟨k, rfl⟩ := Nat.exists_eq_add_of_le h
  refine ⟨d.coefficient * pow10 k, ?_⟩
  have hk : ((pow10 k : Nat) : ℚ) ≠ 0 := Nat.cast_ne_zero.mpr (pow10_pos k).ne'
  rw [value_eq_div, unit, pow10_add, Int.cast_mul, Nat.cast_mul, Int.cast_natCast,
    mul_div_mul_right _ _ hk]

theorem mem_range_of_hasPlaces (hx : HasPlaces x s) (hs : s ≤ maxScale)
    (hfits : |x| * pow10 s < bound) : x ∈ Set.range value := by
  obtain ⟨c, rfl⟩ := hx
  have hpos : (0 : ℚ) < pow10 s := Nat.cast_pos.mpr (pow10_pos s)
  rw [abs_div, Nat.abs_cast, div_mul_cancel₀ _ hpos.ne'] at hfits
  have habs : |c| < (bound : Int) := by exact_mod_cast hfits
  exact ⟨⟨c, s, by rw [Int.abs_eq_natAbs] at habs; exact_mod_cast habs, hs⟩, value_eq_div _⟩

theorem mem_range_of_le (hx : HasPlaces x s) (hs : s ≤ maxScale) (hnonneg : 0 ≤ x) (hle : x ≤ y)
    (hroom : y * pow10 s < bound) : x ∈ Set.range value := by
  apply mem_range_of_hasPlaces hx hs
  rw [abs_of_nonneg hnonneg]
  exact (mul_le_mul_of_nonneg_right hle (Nat.cast_nonneg _)).trans_lt hroom

/-- Places that a number does not need can be left out: its digits are fewer then. -/
theorem exists_scale_le (h : HasPlaces e.value s) : ∃ d : Decimal, d.value = e.value ∧ d.scale ≤ s := by
  rcases le_or_gt e.scale s with hle | hgt
  · exact ⟨e, rfl, hle⟩
  · obtain ⟨k, hk⟩ := Nat.exists_eq_add_of_le hgt.le
    obtain ⟨c, hvalue⟩ := h
    have hc : e.coefficient = c * pow10 k := (value_eq_div_iff hk).mp hvalue
    have hbound : c.natAbs < bound := by
      refine lt_of_le_of_lt ?_ e.coefficient_lt
      rw [hc, Int.natAbs_mul, Int.natAbs_natCast]
      exact Nat.le_mul_of_pos_right _ (pow10_pos k)
    exact ⟨⟨c, s, hbound, hgt.le.trans e.scale_le⟩, (value_eq_div _).trans hvalue.symm, le_refl s⟩

theorem nearest?_of_mem (hden : 0 < den) (hx : (num : ℚ) / den = x) (hmem : x ∈ Set.range value)
    (hplaces : HasPlaces x s) (ht : Nat.min maxScale s ≤ t) :
    ∃ d, nearest? num den t = some d ∧ d.value = x := by
  obtain ⟨e, rfl⟩ := hmem
  obtain ⟨e', hvalue, hscale⟩ := exists_scale_le hplaces
  rw [← hvalue] at hx ⊢
  apply nearest?_of_close hden ((Nat.le_min.mpr ⟨e'.scale_le, hscale⟩).trans ht)
  rw [hx, sub_self, abs_zero, zero_mul]
  exact one_pos

theorem sum_eq (a b : Decimal) :
    ((a.coefficient * b.unit + b.coefficient * a.unit : Int) : ℚ) / (a.unit * b.unit : Nat) =
      a.value + b.value := by
  rw [value_eq_div, value_eq_div, div_add_div _ _ a.unit_cast_pos.ne' b.unit_cast_pos.ne']
  push_cast
  rw [mul_comm (a.unit : ℚ) (b.coefficient : ℚ)]

theorem difference_eq (a b : Decimal) :
    ((a.coefficient * b.unit - b.coefficient * a.unit : Int) : ℚ) / (a.unit * b.unit : Nat) =
      a.value - b.value := by
  rw [value_eq_div, value_eq_div, div_sub_div _ _ a.unit_cast_pos.ne' b.unit_cast_pos.ne']
  push_cast
  rw [mul_comm (a.unit : ℚ) (b.coefficient : ℚ)]

theorem exists_add_of_mem (h : a.value + b.value ∈ Set.range value) :
    ∃ d, a.add? b = some d ∧ d.value = a.value + b.value :=
  nearest?_of_mem (Nat.mul_pos a.unit_pos b.unit_pos) (sum_eq a b) h
    ((hasPlaces_value (Nat.le_max_left _ _)).add (hasPlaces_value (Nat.le_max_right _ _)))
    (Nat.min_le_right _ _)

theorem exists_sub_of_mem (h : a.value - b.value ∈ Set.range value) :
    ∃ d, a.sub? b = some d ∧ d.value = a.value - b.value :=
  nearest?_of_mem (Nat.mul_pos a.unit_pos b.unit_pos) (difference_eq a b) h
    ((hasPlaces_value (Nat.le_max_left _ _)).sub (hasPlaces_value (Nat.le_max_right _ _)))
    (Nat.min_le_right _ _)

/-- A difference is rounded by at most half of a place that the whole has room for. -/
theorem abs_sub_sub_le (hs : s ≤ maxScale) (hb : 0 ≤ b.value) (hle : b.value ≤ a.value)
    (hroom : a.value * pow10 s ≤ bound - 1) (h : a.sub? b = some d) :
    |d.value - (a.value - b.value)| * (2 * pow10 s) ≤ 1 := by
  have hden := Nat.mul_pos a.unit_pos b.unit_pos
  have hplace : (0 : ℚ) < pow10 s := Nat.cast_pos.mpr (pow10_pos s)
  have hless : (a.value - b.value) * pow10 s ≤ bound - 1 :=
    (mul_le_mul_of_nonneg_right (sub_le_self _ hb) hplace.le).trans hroom
  rcases le_total s (max a.scale b.scale) with hkept | hspare
  · have hround : roundHalfEven ((a.coefficient * b.unit - b.coefficient * a.unit) * pow10 s)
        (a.unit * b.unit) ≤ bound - 1 := by
      apply roundHalfEven_le hden
      rw [← difference_eq, div_mul_eq_mul_div, div_le_iff₀ (Nat.cast_pos.mpr hden)] at hless
      exact_mod_cast hless
    obtain ⟨e, he, hscale, -⟩ := nearest?_of_fits hkept
      (exists_ofParts_of_le (round_difference_nonneg hle s) hround (sub_one_lt _) hs)
    obtain rfl := Option.some.inj (h.symm.trans he)
    have hmoved := abs_nearest_sub_le hden h
    rw [difference_eq] at hmoved
    have hunit : ((pow10 s : Nat) : ℚ) ≤ d.unit :=
      Nat.cast_le.mpr (Nat.pow_le_pow_right (by decide) hscale)
    refine le_trans (mul_le_mul_of_nonneg_left ?_ (abs_nonneg _)) hmoved
    linarith
  · -- every place of the difference is kept then
    have hplaces : HasPlaces (a.value - b.value) (max a.scale b.scale) :=
      (hasPlaces_value (Nat.le_max_left _ _)).sub (hasPlaces_value (Nat.le_max_right _ _))
    have hfits : |a.value - b.value| * pow10 (max a.scale b.scale) < bound := by
      rw [abs_of_nonneg (sub_nonneg.mpr hle)]
      calc (a.value - b.value) * pow10 (max a.scale b.scale)
          ≤ (a.value - b.value) * pow10 s :=
            mul_le_mul_of_nonneg_left
              (Nat.cast_le.mpr (Nat.pow_le_pow_right (by decide) hspare)) (sub_nonneg.mpr hle)
        _ < bound := hless.trans_lt (sub_one_lt _)
    obtain ⟨e, he, hexact⟩ :=
      exists_sub_of_mem (mem_range_of_hasPlaces hplaces (hspare.trans hs) hfits)
    obtain rfl := Option.some.inj (h.symm.trans he)
    rw [hexact, sub_self, abs_zero, zero_mul]
    exact zero_le_one

theorem exists_mul_of_mem (h : a.value * b.value ∈ Set.range value) :
    ∃ d, a.mul? b = some d ∧ d.value = a.value * b.value :=
  nearest?_of_mem (Nat.mul_pos a.unit_pos b.unit_pos) (product_eq a b) h
    ((hasPlaces_value (le_refl a.scale)).mul (hasPlaces_value (le_refl b.scale))) (le_refl _)

end Decimal
end QuoteDesk
