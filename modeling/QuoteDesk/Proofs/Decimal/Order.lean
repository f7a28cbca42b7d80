import QuoteDesk.Proofs.Decimal.Rounding
/-!
Rounding keeps the order. Of two quotients the larger one is rounded to a decimal that is not smaller,
although it may be kept with fewer places: where places are given up, the digits are as many as fit.
-/
namespace QuoteDesk

variable {num num' : Int} {den den' : Nat}

theorem ediv_le_round (num : Int) (den : Nat) : num / (den : Int) ≤ roundHalfEven num den := by
  unfold roundHalfEven
  simp only
  split_ifs <;> omega

theorem round_le_ediv_succ (num : Int) (den : Nat) :
    roundHalfEven num den ≤ num / (den : Int) + 1 := by
  unfold roundHalfEven
  simp only
  split_ifs <;> omega

theorem roundHalfEven_mono (hden : 0 < den) (hden' : 0 < den') (h : num * den' ≤ num' * den) :
    roundHalfEven num den ≤ roundHalfEven num' den' := by
  have hpos : (0 : Int) < den := Int.natCast_pos.mpr hden
  have hpos' : (0 : Int) < den' := Int.natCast_pos.mpr hden'
  have hsplit := Int.mul_ediv_add_emod num den
  have hsplit' := Int.mul_ediv_add_emod num' den'
  have hquotients : num / (den : Int) ≤ num' / (den' : Int) := by
    rw [Int.le_ediv_iff_mul_le hpos']
    have hfloor := Int.ediv_mul_le num hpos.ne'
    nlinarith
  rcases hquotients.lt_or_eq with hlt | heq
  · exact (round_le_ediv_succ num den).trans
      ((Int.add_one_le_iff.mpr hlt).trans (ediv_le_round num' den'))
  · -- the whole parts agree, and so the remainders decide
    have hremainders : num % (den : Int) * den' ≤ num' % (den' : Int) * den := by
      rw [← heq] at hsplit'
      nlinarith
    have hhalf : (den : Int) ≤ 2 * (num % den) → (den' : Int) ≤ 2 * (num' % den') := by
      intro hr
      nlinarith
    have hmore : (den : Int) < 2 * (num % den) → (den' : Int) < 2 * (num' % den') := by
      intro hr
      nlinarith
    unfold roundHalfEven
    simp only
    rw [heq] at *
    split_ifs <;> omega

namespace Decimal

variable {a a' b b' d d' : Decimal} {t : Nat}

/-- A number that would fit with one place more is rounded below the bound there. -/
theorem round_next_place_lt (hden : 0 < den) {n : Int} (h : roundHalfEven n den * 10 < bound) :
    roundHalfEven (n * 10) den ≤ bound - 1 := by
  have hbound : (bound : Int) = 79228162514264337593543950336 := rfl
  have hclose := two_mul_abs_round_sub_le hden n
  have hnear := neg_abs_le (roundHalfEven n den * den - n)
  -- the bound ends in six, so ten times a smaller number leaves room for the half
  have hroom : roundHalfEven n den * 10 + 5 ≤ bound - 1 := by omega
  apply roundHalfEven_le hden
  calc n * 10 ≤ (roundHalfEven n den * 10 + 5) * den := by linarith
    _ ≤ (bound - 1) * den := Int.mul_le_mul_of_nonneg_right hroom (Int.natCast_nonneg _)

/-- A decimal that is kept with fewer places than it may have has as many digits as fit. -/
theorem bound_le_of_scale_lt (hden : 0 < den) (hnum : 0 ≤ num) (ht : t ≤ maxScale)
    (h : nearest? num den t = some d) (hscale : d.scale < t) : bound ≤ d.coefficient * 10 := by
  induction t with
  | zero => exact absurd hscale (Nat.not_lt_zero _)
  | succ t ih =>
    unfold nearest? at h
    split at h
    · next d' hd =>
      obtain rfl := Option.some.inj h
      exact absurd (ofParts?_eq_some_iff.mp hd).2 hscale.ne
    · next hnone =>
      rcases (Nat.le_of_lt_succ hscale).lt_or_eq with hlt | rfl
      · exact ih (Nat.le_of_succ_le ht) h hlt
      · by_contra hshort
        rw [(nearest?_eq_some h).2, not_le] at hshort
        have hnext : num * (pow10 (d.scale + 1) : Nat) = num * pow10 d.scale * 10 := by
          rw [pow10_succ, mul_comm 10, Nat.cast_mul, mul_assoc]
          rfl
        obtain ⟨e, he⟩ := exists_ofParts_of_le
          (roundHalfEven_nonneg (Int.mul_nonneg hnum (Int.natCast_nonneg _)) den)
          (hnext ▸ round_next_place_lt hden hshort) (sub_one_lt _) ht
        rw [hnone] at he
        cases he

theorem nearest?_mono (hden : 0 < den) (hden' : 0 < den') (hnum : 0 ≤ num) (ht : t ≤ maxScale)
    (hle : (num : ℚ) / den ≤ num' / den') (h : nearest? num den t = some d)
    (h' : nearest? num' den' t = some d') : d.value ≤ d'.value := by
  have hpos : (0 : ℚ) < den := Nat.cast_pos.mpr hden
  have hpos' : (0 : ℚ) < den' := Nat.cast_pos.mpr hden'
  have hcross : num * den' ≤ num' * den := by
    rw [div_le_div_iff₀ hpos hpos'] at hle
    exact_mod_cast hle
  have hnum' : 0 ≤ num' := by
    have hquotient : (0 : ℚ) ≤ num / den := div_nonneg (Int.cast_nonneg hnum) hpos.le
    have hscaled := (le_div_iff₀ hpos').mp (hquotient.trans hle)
    rw [zero_mul] at hscaled
    exact Int.cast_nonneg_iff.mp hscaled
  have hrounds : ∀ s : Nat,
      roundHalfEven (num * pow10 s) den ≤ roundHalfEven (num' * pow10 s) den' := by
    intro s
    apply roundHalfEven_mono hden hden'
    rw [mul_right_comm, mul_right_comm num']
    exact Int.mul_le_mul_of_nonneg_right hcross (Int.natCast_nonneg _)
  obtain ⟨hscale, hc⟩ := nearest?_eq_some h
  obtain ⟨hscale', hc'⟩ := nearest?_eq_some h'
  have hfewer : d'.scale ≤ d.scale := by
    have hnonneg := roundHalfEven_nonneg (Int.mul_nonneg hnum (Int.natCast_nonneg (pow10 d'.scale))) den
    have hlt : d'.coefficient < bound := by
      have := d'.coefficient_lt
      omega
    obtain ⟨e, he, hlow, -⟩ := nearest?_of_fits hscale'
      (exists_ofParts_of_le hnonneg (hc' ▸ hrounds d'.scale) hlt d'.scale_le)
    rw [h] at he
    exact Option.some.inj he ▸ hlow
  refine le_iff.mp (decide_eq_true ?_)
  rcases hfewer.lt_or_eq with hlt | heq
  · have hlarge := bound_le_of_scale_lt hden' hnum' ht h' (hlt.trans_le hscale)
    have hsmall : d.coefficient < bound := by
      have := d.coefficient_lt
      omega
    have hnonneg' : 0 ≤ d'.coefficient :=
      hc' ▸ roundHalfEven_nonneg (Int.mul_nonneg hnum' (Int.natCast_nonneg _)) den'
    obtain ⟨k, hk⟩ := Nat.exists_eq_add_of_lt hlt
    have hunit : (d.unit : Int) = 10 * d'.unit * pow10 k := by
      rw [unit, unit, hk, Nat.add_right_comm, pow10_add, pow10_succ]
      push_cast
      rfl
    have hfactor : (1 : Int) ≤ pow10 k := Int.toNat_le.mp (pow10_pos k)
    rw [hunit]
    calc d.coefficient * d'.unit
        ≤ bound * d'.unit := Int.mul_le_mul_of_nonneg_right hsmall.le (Int.natCast_nonneg _)
      _ ≤ d'.coefficient * 10 * d'.unit :=
        Int.mul_le_mul_of_nonneg_right hlarge (Int.natCast_nonneg _)
      _ = d'.coefficient * (10 * d'.unit * 1) := by ring
      _ ≤ d'.coefficient * (10 * d'.unit * pow10 k) :=
        Int.mul_le_mul_of_nonneg_left
          (Int.mul_le_mul_of_nonneg_left hfactor (by omega)) hnonneg'
  · rw [unit, unit, heq, hc, hc', heq]
    exact Int.mul_le_mul_of_nonneg_right (hrounds d.scale) (Int.natCast_nonneg _)

theorem nonneg_of_nearest (hnum : 0 ≤ num) (h : nearest? num den t = some d) : 0 ≤ d.value := by
  rw [value_nonneg_iff, (nearest?_eq_some h).2]
  exact roundHalfEven_nonneg (Int.mul_nonneg hnum (Int.natCast_nonneg _)) den

theorem nonneg_of_add (ha : 0 ≤ a.value) (hb : 0 ≤ b.value) (h : a.add? b = some d) : 0 ≤ d.value := by
  refine nonneg_of_nearest (Int.add_nonneg ?_ ?_) h
  · exact Int.mul_nonneg (value_nonneg_iff.mp ha) (Int.natCast_nonneg _)
  · exact Int.mul_nonneg (value_nonneg_iff.mp hb) (Int.natCast_nonneg _)

theorem nonneg_of_mul (ha : 0 ≤ a.value) (hb : 0 ≤ b.value) (h : a.mul? b = some d) : 0 ≤ d.value :=
  nonneg_of_nearest (Int.mul_nonneg (value_nonneg_iff.mp ha) (value_nonneg_iff.mp hb)) h

theorem nonneg_of_div (ha : 0 ≤ a.value) (hb : 0 < b.value) (h : a.div? b = some d) : 0 ≤ d.value := by
  rw [(div?_eq_nearest? hb.ne').2] at h
  refine nonneg_of_nearest ?_ h
  rw [Int.sign_eq_one_of_pos (value_pos_iff.mp hb), one_mul]
  exact Int.mul_nonneg (value_nonneg_iff.mp ha) (Int.natCast_nonneg _)

theorem div_mono (ha : 0 ≤ a.value) (hb : 0 < b.value) (hb' : 0 < b'.value)
    (hle : a.value / b.value ≤ a'.value / b'.value) (h : a.div? b = some d)
    (h' : a'.div? b' = some d') : d.value ≤ d'.value := by
  obtain ⟨hden, hdiv⟩ := div?_eq_nearest? (a := a) hb.ne'
  obtain ⟨hden', hdiv'⟩ := div?_eq_nearest? (a := a') hb'.ne'
  rw [hdiv] at h
  rw [hdiv'] at h'
  rw [← quotient_eq hb.ne', ← quotient_eq hb'.ne'] at hle
  refine nearest?_mono hden hden' ?_ (le_refl _) hle h h'
  rw [Int.sign_eq_one_of_pos (value_pos_iff.mp hb), one_mul]
  exact Int.mul_nonneg (value_nonneg_iff.mp ha) (Int.natCast_nonneg _)

end Decimal
end QuoteDesk
