import QuoteDesk.Decimal.Units
import QuoteDesk.Proofs.Decimal.Exact
import Mathlib.Algebra.Order.Floor.Semifield
import Mathlib.Data.Rat.Floor
/-!
Amounts in smallest units. Whole and fraction are scaled apart, and neither of them is rounded on the
way, so the amount is the whole part of the number times a power of ten.
-/
namespace QuoteDesk

theorem Units.ofNat?_eq_none_iff {n : Nat} : ofNat? n = none ↔ size ≤ n := by
  unfold ofNat?
  split
  · next h => exact ⟨nofun, fun hle => absurd h (not_lt.mpr hle)⟩
  · next h => exact ⟨fun _ => not_lt.mp h, fun _ => rfl⟩

theorem Units.ofNat?_eq_some_iff {n : Nat} {u : Units} : ofNat? n = some u ↔ u.val = n := by
  unfold ofNat?
  split
  · next h =>
    rw [Option.some.injEq]
    exact ⟨fun hu => hu ▸ rfl, fun hu => by cases u; cases hu; rfl⟩
  · next h => exact ⟨nofun, fun hu => absurd (hu ▸ u.val_lt) h⟩

namespace Decimal

variable {d : Decimal} {decimals : Nat}

theorem floor_value (h : 0 ≤ d.value) : ⌊d.value⌋₊ = d.coefficient.natAbs / d.unit := by
  rw [value_eq_natAbs_div h, Nat.floor_div_eq_div]

theorem toNat?_trunc (h : 0 ≤ d.value) : d.trunc.toNat? = some ⌊d.value⌋₊ := by
  have hc := value_nonneg_iff.mp h
  have hwhole : d.trunc.coefficient = (d.coefficient.natAbs / d.unit : Nat) := by
    rw [Int.natCast_ediv, Int.natAbs_of_nonneg hc]
    exact Int.tdiv_eq_ediv_of_nonneg hc
  have hunit : d.trunc.unit = 1 := rfl
  rw [toNat?, hunit, hwhole, if_pos (Int.natCast_nonneg _), Nat.cast_one, Int.tdiv_one,
    Int.toNat_natCast, floor_value h]

theorem value_fract (h : 0 ≤ d.value) : d.fract.value = d.value - ⌊d.value⌋₊ := by
  have hc := value_nonneg_iff.mp h
  have hrest : d.fract.coefficient = (d.coefficient.natAbs % d.unit : Nat) := by
    rw [Int.natCast_emod, Int.natAbs_of_nonneg hc]
    exact Int.tmod_eq_emod_of_nonneg hc
  have hsplit : ((d.coefficient.natAbs % d.unit : Nat) : ℚ) +
      (d.coefficient.natAbs / d.unit : Nat) * d.unit = d.coefficient.natAbs := by
    exact_mod_cast Nat.mod_add_div' d.coefficient.natAbs d.unit
  have hunit : d.fract.unit = d.unit := rfl
  rw [value_eq_div, hunit, hrest, floor_value h, value_eq_natAbs_div h, ← hsplit, add_div,
    mul_div_cancel_right₀ _ d.unit_cast_pos.ne', add_sub_cancel_right, Int.cast_natCast]

theorem pow10_lt_bound {s : Nat} (h : s ≤ maxScale) : pow10 s < bound :=
  lt_of_le_of_lt (Nat.pow_le_pow_right (by decide) h) (by decide)

theorem exists_ofInt_pow10 (h : decimals ≤ maxScale) :
    ∃ factor, ofInt? (pow10 decimals) = some factor ∧ factor.value = pow10 decimals := by
  have hfits : ((pow10 decimals : Nat) : Int).natAbs < bound := by
    rw [Int.natAbs_natCast]
    exact pow10_lt_bound h
  refine ⟨⟨pow10 decimals, 0, hfits, Nat.zero_le _⟩, dif_pos ⟨hfits, Nat.zero_le _⟩, ?_⟩
  have hone : ((pow10 0 : Nat) : ℚ) = 1 := Nat.cast_one
  rw [value_eq_div, unit, hone, div_one, Int.cast_natCast]

/-- A fraction has no more digits than places, so a product with a power of ten has no more than the
larger of the two. -/
theorem fract_mul_mem_range (h : 0 ≤ d.value) (hs : decimals ≤ maxScale) :
    d.fract.value * pow10 decimals ∈ Set.range value := by
  have hpos : ∀ s, (0 : ℚ) < pow10 s := fun s => Nat.cast_pos.mpr (pow10_pos s)
  have hnonneg : 0 ≤ d.fract.value := by
    rw [value_fract h]
    exact sub_nonneg.mpr (Nat.floor_le h)
  have hlt : d.fract.value < 1 := by
    rw [value_fract h, sub_lt_iff_lt_add']
    exact Nat.lt_floor_add_one d.value
  have hplaces : HasPlaces d.fract.value d.scale := hasPlaces_value (le_refl d.fract.scale)
  have hdigits : decimals + (d.scale - decimals) ≤ maxScale := by
    have := d.scale_le
    omega
  refine mem_range_of_hasPlaces (hplaces.mul_pow10 decimals) (by omega) ?_
  rw [abs_of_nonneg (mul_nonneg hnonneg (hpos _).le), mul_assoc, ← Nat.cast_mul, ← pow10_add]
  calc d.fract.value * pow10 (decimals + (d.scale - decimals))
      < 1 * pow10 (decimals + (d.scale - decimals)) := mul_lt_mul_of_pos_right hlt (hpos _)
    _ < bound := by
      rw [one_mul]
      exact Nat.cast_lt.mpr (pow10_lt_bound hdigits)

theorem toUnits?_eq_floor (h : 0 ≤ d.value) (hs : decimals ≤ maxScale) :
    d.toUnits? decimals = Units.ofNat? ⌊d.value * pow10 decimals⌋₊ := by
  have hsign : (!d.isNegative) = true := by
    rw [Bool.not_eq_true', Bool.eq_false_iff, Ne, isNegative_iff, not_lt]
    exact h
  obtain ⟨factor, hfactor, hvalue⟩ := exists_ofInt_pow10 hs
  obtain ⟨part, hpart, hexact⟩ := exists_mul_of_mem (hvalue ▸ fract_mul_mem_range h hs)
  rw [hvalue, value_fract h, sub_mul] at hexact
  have hnonneg : 0 ≤ part.value := by
    rw [hexact, ← sub_mul]
    exact mul_nonneg (sub_nonneg.mpr (Nat.floor_le h)) (Nat.cast_nonneg _)
  have hsum : ⌊d.value * pow10 decimals⌋₊ = ⌊d.value⌋₊ * pow10 decimals + ⌊part.value⌋₊ := by
    rw [add_comm, ← Nat.floor_add_natCast hnonneg, hexact, Nat.cast_mul, sub_add_cancel]
  simp only [toUnits?, hsign, hs, guard, if_true, toNat?_trunc h, hfactor, and_self]
  show (Units.ofNat? (⌊d.value⌋₊ * pow10 decimals)).bind (fun whole =>
    (d.fract.mul? factor).bind fun part => part.trunc.toNat?.bind fun part =>
      Units.ofNat? (whole.val + part)) = _
  rw [hsum]
  cases hwhole : Units.ofNat? (⌊d.value⌋₊ * pow10 decimals) with
  | none =>
    have hlarge := Units.ofNat?_eq_none_iff.mp hwhole
    exact (Units.ofNat?_eq_none_iff.mpr (hlarge.trans (Nat.le_add_right _ _))).symm
  | some whole =>
    rw [Option.bind_some, hpart, Option.bind_some, toNat?_trunc hnonneg, Option.bind_some,
      Units.ofNat?_eq_some_iff.mp hwhole]

theorem toUnits?_of_many (d : Decimal) (hs : maxScale < decimals) : d.toUnits? decimals = none := by
  have hguard : ¬ ((!d.isNegative) = true ∧ decimals ≤ maxScale) := fun h => absurd h.2 (not_le.mpr hs)
  rw [toUnits?, guard, if_neg hguard]
  rfl

theorem val_units (h : 0 ≤ d.value) (hs : decimals ≤ maxScale) :
    ((d.toUnits? decimals).getD .zero).val =
      if ⌊d.value * pow10 decimals⌋₊ < Units.size then ⌊d.value * pow10 decimals⌋₊ else 0 := by
  rw [toUnits?_eq_floor h hs]
  split
  · next hfits => rw [Units.ofNat?, dif_pos hfits, Option.getD_some]
  · next hlarge =>
    rw [Units.ofNat?_eq_none_iff.mpr (not_lt.mp hlarge)]
    rfl

theorem val_units_of_fits (h : 0 ≤ d.value) (hs : decimals ≤ maxScale)
    (hfits : d.value * pow10 decimals < Units.size) :
    ((d.toUnits? decimals).getD .zero).val = ⌊d.value * pow10 decimals⌋₊ := by
  rw [val_units h hs, if_pos ((Nat.floor_lt (mul_nonneg h (Nat.cast_nonneg _))).mpr hfits)]

theorem val_units_mono {e : Decimal} (h : 0 ≤ d.value) (hle : d.value ≤ e.value)
    (hfits : e.value * pow10 decimals < Units.size) :
    ((d.toUnits? decimals).getD .zero).val ≤ ((e.toUnits? decimals).getD .zero).val := by
  have hscaled : d.value * pow10 decimals ≤ e.value * pow10 decimals :=
    mul_le_mul_of_nonneg_right hle (Nat.cast_nonneg _)
  rcases le_or_gt decimals maxScale with hs | hs
  · rw [val_units_of_fits h hs (hscaled.trans_lt hfits), val_units_of_fits (h.trans hle) hs hfits]
    exact Nat.floor_le_floor hscaled
  · rw [toUnits?_of_many d hs, toUnits?_of_many e hs]

theorem units_zero (decimals : Nat) : (zero.toUnits? decimals).getD .zero = .zero := by
  rcases le_or_gt decimals maxScale with hs | hs
  · rw [toUnits?_eq_floor value_zero.ge hs, value_zero, zero_mul, Nat.floor_zero]
    rfl
  · rw [toUnits?_of_many zero hs]
    rfl

end Decimal
end QuoteDesk
