import Mathlib.MeasureTheory.Integral.IntervalIntegral.Basic
import QuoteDesk.Proofs.Book.Cost
/-!
The notional of a walk as an area. The levels of a book, laid end to end, give each quantity a price; the
first levels are consumed as a whole and the last one in part, so an amount costs the integral of that price
over it. Main statement: where the numbers have few places and room for them, no operation of a walk rounds,
and it consumes that integral.
-/
namespace QuoteDesk

open MeasureTheory (volume)

variable {book rest : Book} {amount : Decimal} {l : Level} {s t : Nat} {x : ℝ}

namespace Book

/-- The price of the level that a quantity falls into, nothing behind the last one. -/
noncomputable def priceAt : Book → ℝ → ℝ
  | [], _ => 0
  | l :: rest, x =>
    if x < l.quantity.value then l.price.value else priceAt rest (x - l.quantity.value)

theorem priceAt_of_lt (h : x < l.quantity.value) : priceAt (l :: rest) x = l.price.value := if_pos h

theorem priceAt_of_le (h : l.quantity.value ≤ x) :
    priceAt (l :: rest) x = rest.priceAt (x - l.quantity.value) := if_neg (not_lt.mpr h)

theorem intervalIntegrable_priceAt (book : Book) (x y : ℝ) :
    IntervalIntegrable book.priceAt volume x y := by
  induction book generalizing x y with
  | nil => exact intervalIntegrable_const
  | cons l rest ih =>
    have from_end : ∀ x, IntervalIntegrable (priceAt (l :: rest)) volume l.quantity.value x := by
      intro x
      rcases le_total x (l.quantity.value : ℝ) with hx | hx
      · refine (intervalIntegrable_const (c := (l.price.value : ℝ))).congr_uIoo fun u hu => ?_
        rw [Set.uIoo_of_ge hx] at hu
        exact (priceAt_of_lt hu.2).symm
      · have hshifted := (ih 0 (x - l.quantity.value)).comp_sub_right (l.quantity.value : ℝ)
        rw [zero_add, sub_add_cancel] at hshifted
        refine hshifted.congr_uIoo fun u hu => ?_
        rw [Set.uIoo_of_le hx] at hu
        exact (priceAt_of_le hu.1.le).symm
    exact (from_end x).symm.trans (from_end y)

/-- The integral of the price over an amount is what the amount costs. -/
theorem integral_priceAt (hbook : book.IsStocked) {x : ℚ} (hx : 0 ≤ x) :
    ∫ u in (0 : ℝ)..x, book.priceAt u = book.cost x := by
  induction book generalizing x with
  | nil => simp [priceAt, cost]
  | cons l rest ih =>
    have hstock : (0 : ℝ) ≤ l.quantity.value := Rat.cast_nonneg.mpr (hbook l List.mem_cons_self)
    have within : ∀ {y : ℝ}, 0 ≤ y → y ≤ l.quantity.value →
        ∫ u in (0 : ℝ)..y, priceAt (l :: rest) u = y * l.price.value := by
      intro y hy hle
      have hlevel : Set.EqOn (priceAt (l :: rest)) (fun _ => (l.price.value : ℝ)) (Set.Ioo 0 y) :=
        fun u hu => priceAt_of_lt (hu.2.trans_le hle)
      rw [intervalIntegral.integral_congr_Ioo_of_le hy hlevel, intervalIntegral.integral_const,
        sub_zero, smul_eq_mul]
    rcases le_total l.quantity.value x with hfull | hpart
    · have hle : (l.quantity.value : ℝ) ≤ x := Rat.cast_le.mpr hfull
      have hothers : ∫ u in (l.quantity.value : ℝ)..x, priceAt (l :: rest) u =
          cost rest (x - l.quantity.value) := by
        rw [intervalIntegral.integral_congr_Ioo_of_le hle fun u hu => priceAt_of_le hu.1.le,
          intervalIntegral.integral_comp_sub_right, sub_self, ← Rat.cast_sub,
          ih hbook.rest (sub_nonneg.mpr hfull)]
      rw [← intervalIntegral.integral_add_adjacent_intervals
        (intervalIntegrable_priceAt _ 0 l.quantity.value) (intervalIntegrable_priceAt _ _ x),
        within hstock le_rfl, hothers, cost_of_full hfull, mul_comm]
      push_cast
      rfl
    · rw [within (Rat.cast_nonneg.mpr hx) (Rat.cast_le.mpr hpart), cost_of_part hbook.rest hpart,
        mul_comm]
      push_cast
      rfl

theorem cost_min_depth (hbook : book.IsStocked) (x : ℚ) : book.cost (min x book.depth) = book.cost x := by
  rcases le_total x book.depth with hle | hle
  · rw [min_eq_left hle]
  · rw [min_eq_right hle]
    induction book generalizing x with
    | nil => rfl
    | cons l rest ih =>
      rw [depth_cons] at hle ⊢
      have hdepth := hbook.rest.depth_nonneg
      have hfull : l.quantity.value ≤ x := (le_add_of_nonneg_right hdepth).trans hle
      rw [cost_of_full (le_add_of_nonneg_right hdepth), cost_of_full hfull, add_sub_cancel_left,
        ih hbook.rest _ (le_sub_iff_add_le'.mpr hle)]

end Book

namespace Walk

/-- Let an amount and the quantities of a book have `s` places and its prices `t`, not more than a decimal
has together, with room for the amount on `s` places and for what it fills on all of them. Then no operation
of the walk rounds, and it covers what the levels offer, the whole amount exactly if they offer as much, and
consumes the integral of the price over that. -/
theorem notional_eq_integral (hst : s + t ≤ Decimal.maxScale) (hbook : book.IsSound)
    (hlevels : ∀ l ∈ book, HasPlaces l.quantity.value s ∧ HasPlaces l.price.value t)
    (hpos : 0 ≤ amount.value) (hplaces : HasPlaces amount.value s)
    (hroom : amount.value * pow10 s < Decimal.bound)
    (hfilled : (∫ x in (0 : ℝ)..(min amount.value book.depth : ℚ), book.priceAt x) * pow10 (s + t) <
      Decimal.bound) :
    (Stage.start amount).IsExact book ∧ ∃ w, run book amount = .ok (some w) ∧
      w.quantity.value = min amount.value book.depth ∧
      (w.complete = true ↔ amount.value ≤ book.depth) ∧
      (w.notional.value : ℝ) = ∫ x in (0 : ℝ)..w.quantity.value, book.priceAt x := by
  have hstocked := hbook.isStocked
  have harea : ∫ x in (0 : ℝ)..(min amount.value book.depth : ℚ), book.priceAt x =
      book.cost amount.value := by
    rw [Book.integral_priceAt hstocked (le_min hpos hstocked.depth_nonneg),
      Book.cost_min_depth hstocked]
  have hcost : book.cost amount.value * pow10 (s + t) < Decimal.bound := by
    rw [harea] at hfilled
    exact_mod_cast hfilled
  have hexact := (Stage.hasRoom_start hst hbook hlevels hpos hplaces hroom hcost).isExact
  obtain ⟨w, hrun, -⟩ := hexact.resume_eq hstocked hpos
  obtain ⟨hquantity, hnotional, hcomplete⟩ := totals_of_exact hexact hstocked hpos hrun
  exact ⟨hexact, w, hrun, hquantity, hcomplete, by rw [hquantity, harea, hnotional]⟩

/-- Six and a half are taken from five at 10.5, none at eleven and four at 12.25. -/
theorem notional_eq_integral_three_levels :
    let amount : Decimal := ⟨65, 1, by decide, by decide⟩
    let book : Book :=
      [⟨⟨105, 1, by decide, by decide⟩, ⟨5, 0, by decide, by decide⟩⟩,
        ⟨⟨11, 0, by decide, by decide⟩, .zero⟩,
        ⟨⟨1225, 2, by decide, by decide⟩, ⟨4, 0, by decide, by decide⟩⟩]
    1 + 2 ≤ Decimal.maxScale ∧ book.IsSound ∧
      (∀ l ∈ book, HasPlaces l.quantity.value 1 ∧ HasPlaces l.price.value 2) ∧
      0 ≤ amount.value ∧ HasPlaces amount.value 1 ∧ amount.value * pow10 1 < Decimal.bound ∧
      (∫ x in (0 : ℝ)..(min amount.value book.depth : ℚ), book.priceAt x) * pow10 (1 + 2) <
        Decimal.bound ∧
      (Stage.start amount).IsExact book ∧ ∃ w, run book amount = .ok (some w) ∧ w.complete = true ∧
        w.notional.value = 70875 / 1000 ∧
        (w.notional.value : ℝ) = ∫ x in (0 : ℝ)..w.quantity.value, book.priceAt x := by
  intro amount book
  have hplaces : 1 + 2 ≤ Decimal.maxScale := by decide
  have hsound : book.IsSound := by
    unfold Book.IsSound
    decide
  have hlevels : ∀ l ∈ book, HasPlaces l.quantity.value 1 ∧ HasPlaces l.price.value 2 := by
    have hscales : ∀ l ∈ book, l.quantity.scale ≤ 1 ∧ l.price.scale ≤ 2 := by decide
    exact fun l hl =>
      ⟨Decimal.hasPlaces_value (hscales l hl).1, Decimal.hasPlaces_value (hscales l hl).2⟩
  have hpos : 0 ≤ amount.value := Decimal.value_nonneg_iff.mpr (by decide)
  have hamount : HasPlaces amount.value 1 := Decimal.hasPlaces_value (le_refl 1)
  have hroom : amount.value * pow10 1 < Decimal.bound := by decide +kernel
  have hfilled : (∫ x in (0 : ℝ)..(min amount.value book.depth : ℚ), book.priceAt x) *
      pow10 (1 + 2) < Decimal.bound := by
    have hcost : book.cost amount.value * pow10 (1 + 2) < Decimal.bound := by decide +kernel
    rw [Book.integral_priceAt hsound.isStocked (le_min hpos hsound.isStocked.depth_nonneg),
      Book.cost_min_depth hsound.isStocked]
    exact_mod_cast hcost
  have hrun : run book amount = .ok (some ⟨amount, ⟨70875, 3, by decide, by decide⟩, true⟩) := by
    decide +kernel
  obtain ⟨hexact, w, hw, -, -, hnotional⟩ :=
    notional_eq_integral hplaces hsound hlevels hpos hamount hroom hfilled
  obtain rfl := Option.some.inj (Except.ok.inj (hrun.symm.trans hw))
  exact ⟨hplaces, hsound, hlevels, hpos, hamount, hroom, hfilled, hexact, _, hrun, rfl,
    by decide +kernel, hnotional⟩

end Walk
end QuoteDesk
