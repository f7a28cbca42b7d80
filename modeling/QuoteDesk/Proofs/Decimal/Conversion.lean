import QuoteDesk.Proofs.Decimal.Units
/-!
Amounts as numbers of tokens and back. A number of tokens has an amount in smallest units exactly if it is
not negative, its scale is one that a decimal can have and the whole part of the scaled number fits; the
amount is that whole part. An amount becomes a number of tokens exactly if a decimal has room for its
digits. No digit is lost then, although zeros at the end of the fraction are left out, and so the way back
gives the same amount.
-/
namespace QuoteDesk

theorem cast_pow10 (n : Nat) : ((pow10 n : Nat) : ℚ) = 10 ^ n := Nat.cast_pow 10 n

namespace Decimal

theorem exists_strip (s : Nat) (c : Int) :
    ∃ k, s = (strip s c).2 + k ∧ c = (strip s c).1 * pow10 k := by
  induction s generalizing c with
  | zero => exact ⟨0, rfl, (Int.mul_one c).symm⟩
  | succ s ih =>
    unfold strip
    split
    · next hzero =>
      obtain ⟨k, hscale, hc⟩ := ih (c / 10)
      refine ⟨k + 1, by omega, ?_⟩
      rw [pow10_succ, Nat.cast_mul, mul_left_comm, ← hc]
      omega
    · exact ⟨0, rfl, (Int.mul_one c).symm⟩

theorem strip_ends (s : Nat) (c : Int) : (strip s c).2 = 0 ∨ ¬ (10 : Int) ∣ (strip s c).1 := by
  induction s generalizing c with
  | zero => exact .inl rfl
  | succ s ih =>
    unfold strip
    split
    · exact ih (c / 10)
    · next hdigit =>
      right
      intro hten
      exact hdigit (Int.emod_eq_zero_of_dvd hten)

variable {d : Decimal} {decimals : Nat}

theorem value_normalize (d : Decimal) : d.normalize.value = d.value := by
  obtain ⟨k, hscale, hc⟩ := exists_strip d.scale d.coefficient
  rw [value_eq_div]
  exact ((value_eq_div_iff hscale).mpr hc).symm

theorem toUnits?_of_neg (h : d.value < 0) (decimals : Nat) : d.toUnits? decimals = none := by
  have hguard : ¬ ((!d.isNegative) = true ∧ decimals ≤ maxScale) := by
    rw [isNegative_iff.mpr h]
    exact fun hsign => absurd hsign.1 (by decide)
  rw [toUnits?, guard, if_neg hguard]
  rfl

/-- A decimal has an amount only if it is not negative and the scale is one that a decimal can have. -/
theorem toUnits?_of_not (h : ¬ (0 ≤ d.value ∧ decimals ≤ maxScale)) : d.toUnits? decimals = none := by
  rcases lt_or_ge d.value 0 with hneg | hnonneg
  · exact toUnits?_of_neg hneg decimals
  · exact toUnits?_of_many d (not_le.mp fun hs => h ⟨hnonneg, hs⟩)

/-- The amount is the whole part of the scaled number, and there is none exactly if the number is negative,
the scale too large or the whole part beyond 128 bits. The product of the fraction is never rounded. -/
theorem units_eq_floor (d : Decimal) (decimals : Nat) :
    (∀ u : Units, d.toUnits? decimals = some u ↔
      0 ≤ d.value ∧ decimals ≤ 28 ∧ (u.val : Int) = ⌊d.value * 10 ^ decimals⌋) ∧
    (d.toUnits? decimals = none ↔
      ¬ (0 ≤ d.value ∧ decimals ≤ 28 ∧ ⌊d.value * 10 ^ decimals⌋ < 2 ^ 128)) ∧
    (0 ≤ d.value ∧ decimals ≤ 28 → ∃ factor part, ofInt? (pow10 decimals) = some factor ∧
      d.fract.mul? factor = some part ∧ part.value = d.fract.value * 10 ^ decimals) := by
  by_cases h : 0 ≤ d.value ∧ decimals ≤ 28
  case neg =>
    rw [toUnits?_of_not h]
    refine ⟨fun u => ⟨nofun, ?_⟩, ⟨fun _ => ?_, fun _ => rfl⟩, fun hgood => absurd hgood h⟩
    · rintro ⟨hnonneg, hs, -⟩
      exact absurd ⟨hnonneg, hs⟩ h
    · rintro ⟨hnonneg, hs, -⟩
      exact h ⟨hnonneg, hs⟩
  case pos =>
    obtain ⟨hnonneg, hs⟩ := h
    have hscaled : 0 ≤ d.value * 10 ^ decimals := mul_nonneg hnonneg (pow_nonneg (by decide) _)
    have hfloor : (⌊d.value * 10 ^ decimals⌋₊ : Int) = ⌊d.value * 10 ^ decimals⌋ :=
      Int.natCast_floor_eq_floor hscaled
    have hunits : d.toUnits? decimals = Units.ofNat? ⌊d.value * 10 ^ decimals⌋₊ := by
      rw [toUnits?_eq_floor hnonneg hs, cast_pow10]
    rw [hunits, ← hfloor]
    refine ⟨fun u => ?amount, ?none, fun _ => ?product⟩
    case amount =>
      rw [Units.ofNat?_eq_some_iff]
      constructor
      · intro hu
        exact ⟨hnonneg, hs, congrArg _ hu⟩
      · rintro ⟨-, -, hu⟩
        exact Int.ofNat_inj.mp hu
    case none =>
      have hsize : ((Units.size : Nat) : Int) = 2 ^ 128 := by decide
      rw [Units.ofNat?_eq_none_iff]
      constructor
      · rintro hlarge ⟨-, -, hfits⟩
        omega
      · intro hnot
        by_contra hsmall
        exact hnot ⟨hnonneg, hs, by omega⟩
    case product =>
      obtain ⟨factor, hfactor, hvalue⟩ := exists_ofInt_pow10 hs
      obtain ⟨part, hpart, hexact⟩ := exists_mul_of_mem (hvalue ▸ fract_mul_mem_range hnonneg hs)
      rw [hvalue, cast_pow10] at hexact
      exact ⟨factor, part, hfactor, hpart, hexact⟩

/-- At 18 decimals 123 456 789 012.5 tokens have more units than a coefficient can count. -/
theorem units_eq_floor_many_digits :
    let d : Decimal := ⟨1234567890125, 1, by decide, by decide⟩
    let u : Units := ⟨123456789012500000000000000000, by decide⟩
    bound ≤ u.val ∧ 0 ≤ d.value ∧ 18 ≤ 28 ∧ (u.val : Int) = ⌊d.value * 10 ^ 18⌋ ∧
      d.toUnits? 18 = some u := by
  intro d u
  have hnonneg : 0 ≤ d.value := value_nonneg_iff.mpr (by decide)
  have hfloor : (u.val : Int) = ⌊d.value * 10 ^ 18⌋ := by decide +kernel
  obtain ⟨hamount, -, -⟩ := units_eq_floor d 18
  exact ⟨by decide, hnonneg, by decide, hfloor, (hamount u).mpr ⟨hnonneg, by decide, hfloor⟩⟩

end Decimal

namespace Units

open Decimal

variable {raw : Units} {decimals : Nat} {d : Decimal}

theorem toTokens?_eq_some_iff : raw.toTokens? decimals = some d ↔
    ∃ e : Decimal, e.coefficient = raw.val ∧ e.scale = decimals ∧ e.normalize = d := by
  simp only [toTokens?, Option.map_eq_some_iff, ofParts?_eq_some_iff, and_assoc]

theorem value_of_toTokens? (h : raw.toTokens? decimals = some d) :
    d.value = raw.val / pow10 decimals := by
  obtain ⟨e, hc, rfl, rfl⟩ := toTokens?_eq_some_iff.mp h
  rw [value_normalize, value_eq_div, hc, unit, Int.cast_natCast]

theorem exists_toTokens?_iff :
    (∃ d, raw.toTokens? decimals = some d) ↔ decimals ≤ maxScale ∧ raw.val < bound := by
  constructor
  · rintro ⟨d, hd⟩
    obtain ⟨e, hc, rfl, -⟩ := toTokens?_eq_some_iff.mp hd
    have hlt := e.coefficient_lt
    rw [hc, Int.natAbs_natCast] at hlt
    exact ⟨e.scale_le, hlt⟩
  · rintro ⟨hs, hlt⟩
    let e : Decimal := ⟨raw.val, decimals, by rwa [Int.natAbs_natCast], hs⟩
    exact ⟨e.normalize, toTokens?_eq_some_iff.mpr ⟨e, rfl, rfl, rfl⟩⟩

/-- An amount makes a number of tokens exactly if a decimal has room for it. The number is the amount moved
by the decimals, with no zero at the end of its fraction, and has this amount again. -/
theorem tokens_recover_units (raw : Units) (decimals : Nat) :
    ((∃ d, raw.toTokens? decimals = some d) ↔ decimals ≤ 28 ∧ raw.val < 2 ^ 96) ∧
      ∀ d, raw.toTokens? decimals = some d →
        d.value = raw.val / 10 ^ decimals ∧ (d.scale = 0 ∨ ¬ (10 : Int) ∣ d.coefficient) ∧
          d.toUnits? decimals = some raw := by
  refine ⟨exists_toTokens?_iff, fun d hd => ?_⟩
  have hvalue := value_of_toTokens? hd
  have hs : decimals ≤ maxScale := (exists_toTokens?_iff.mp ⟨d, hd⟩).1
  have hpos : (0 : ℚ) < pow10 decimals := Nat.cast_pos.mpr (pow10_pos decimals)
  have hnonneg : 0 ≤ d.value := hvalue ▸ div_nonneg (Nat.cast_nonneg _) hpos.le
  refine ⟨by rw [hvalue, cast_pow10], ?digits, ?back⟩
  case digits =>
    obtain ⟨e, -, -, rfl⟩ := toTokens?_eq_some_iff.mp hd
    exact strip_ends e.scale e.coefficient
  case back =>
    rw [toUnits?_eq_floor hnonneg hs, hvalue, div_mul_cancel₀ _ hpos.ne', Nat.floor_natCast]
    exact Units.ofNat?_eq_some_iff.mpr rfl

/-- The largest amount in range that ends in a zero, at the largest scale. -/
theorem tokens_recover_units_largest :
    let raw : Units := ⟨79228162514264337593543950330, by decide⟩
    let d : Decimal := ⟨7922816251426433759354395033, 27, by decide, by decide⟩
    raw.toTokens? 28 = some d ∧ d.value = 79228162514264337593543950330 / 10 ^ 28 ∧
      d.toUnits? 28 = some raw := by
  intro raw d
  have htokens : raw.toTokens? 28 = some d := by decide
  obtain ⟨hvalue, -, hback⟩ := (tokens_recover_units raw 28).2 d htokens
  exact ⟨htokens, hvalue, hback⟩

end Units
end QuoteDesk
