import QuoteDesk.Proofs.Book.Walk
import QuoteDesk.Proofs.Decimal.Exact
/-!
What the bids pay for an amount that they fill. The amount is multiplied by the notional and divided by
the quantity, which is the amount again, so the notional comes back as far as the product is exact. A
product keeps 28 places and 96 bits at most: a small amount can lose its notional there.
-/
namespace QuoteDesk

namespace Walk

variable {w : Walk} {book : Book} {amount p out : Decimal}

structure Fills (w : Walk) (book : Book) (amount : Decimal) : Prop where
  run : Walk.run book amount = .ok (some w)
  complete : w.complete = true
  quantity : w.quantity.value = amount.value

/-- How far the rounding of the product moves what comes back. -/
def drift (w : Walk) (amount product : Decimal) : ℚ :=
  |product.value - amount.value * w.notional.value| / amount.value

theorem abs_quotient_sub_eq (hpos : 0 < amount.value) (hfilled : w.quantity.value = amount.value)
    (p : Decimal) : |p.value / w.quantity.value - w.notional.value| = w.drift amount p := by
  rw [drift, hfilled, ← abs_of_pos hpos, ← abs_div, abs_of_pos hpos, sub_div,
    mul_div_cancel_left₀ _ hpos.ne']

theorem yield?_of_product (hp : amount.mul? w.notional = some p)
    (hout : p.div? w.quantity = some out) : w.yield? amount .bids = some out := by
  simp only [yield?, ratio, hp, Option.bind_some, hout]

theorem exists_yield_of_drift (hpos : 0 < amount.value) (hfilled : w.quantity.value = amount.value)
    (hp : amount.mul? w.notional = some p)
    (hdrift : w.drift amount p * (2 * pow10 Decimal.maxScale) < 1) :
    ∃ out, w.yield? amount .bids = some out ∧ out.value = w.notional.value := by
  rw [← abs_quotient_sub_eq hpos hfilled] at hdrift
  obtain ⟨out, hout, hvalue⟩ := Decimal.exists_div_of_close (hfilled ▸ hpos.ne') hdrift
  exact ⟨out, yield?_of_product hp hout, hvalue⟩

theorem drift_le_of_recovers (hpos : 0 < amount.value) (hfilled : w.quantity.value = amount.value)
    (hout : p.div? w.quantity = some out) (hvalue : out.value = w.notional.value) :
    w.drift amount p * (2 * out.unit) ≤ 1 := by
  have hle := Decimal.abs_div_sub_le (hfilled ▸ hpos.ne') hout
  rwa [hvalue, abs_sub_comm, abs_quotient_sub_eq hpos hfilled] at hle

theorem exists_yield_of_mem (hpos : 0 < amount.value) (hfilled : w.quantity.value = amount.value)
    (hmem : amount.value * w.notional.value ∈ Set.range Decimal.value) :
    ∃ out, w.yield? amount .bids = some out ∧ out.value = w.notional.value := by
  obtain ⟨p, hp, hexact⟩ := Decimal.exists_mul_of_mem hmem
  apply exists_yield_of_drift hpos hfilled hp
  rw [drift, hexact, sub_self, abs_zero, zero_div, zero_mul]
  exact one_pos

/-- Where the product is too large, the average price gives the notional back if it is exact. -/
theorem exists_yield_of_overflow (hpos : 0 < amount.value) (hcomplete : w.complete = true)
    (hfilled : w.quantity.value = amount.value) (hp : amount.mul? w.notional = none)
    (hmem : w.notional.value / amount.value ∈ Set.range Decimal.value) :
    ∃ out, w.yield? amount .bids = some out ∧ out.value = w.notional.value := by
  obtain ⟨price, hprice⟩ := hmem
  have hclose : |w.notional.value / w.quantity.value - price.value| *
      (2 * pow10 Decimal.maxScale) < 1 := by
    rw [hfilled, hprice, sub_self, abs_zero, zero_mul]
    exact one_pos
  obtain ⟨average, haverage, hvalue⟩ := Decimal.exists_div_of_close (hfilled ▸ hpos.ne') hclose
  have hback : average.value * amount.value = w.notional.value := by
    rw [hvalue, hprice, div_mul_cancel₀ _ hpos.ne']
  obtain ⟨out, hout, hexact⟩ := Decimal.exists_mul_of_mem ⟨w.notional, hback.symm⟩
  refine ⟨out, ?_, hexact.trans hback⟩
  simp only [yield?, ratio, hp, Option.bind_none, averagePrice?, hcomplete, if_true, haverage,
    Option.bind_some, hout]

/-- A product of at most half of the last place vanishes, and with it what comes back. -/
theorem exists_yield_of_small (hpos : 0 < amount.value) (hfilled : w.quantity.value = amount.value)
    (hsmall : |amount.value * w.notional.value| * (2 * pow10 Decimal.maxScale) ≤ 1) :
    ∃ out, w.yield? amount .bids = some out ∧ out.value = 0 := by
  obtain ⟨p, hp, hzero⟩ := Decimal.exists_mul_of_small hsmall
  have hclose : |p.value / w.quantity.value - Decimal.zero.value| *
      (2 * pow10 Decimal.maxScale) < 1 := by
    rw [hzero, zero_div, Decimal.value_zero, sub_self, abs_zero, zero_mul]
    exact one_pos
  obtain ⟨out, hout, hvalue⟩ := Decimal.exists_div_of_close (hfilled ▸ hpos.ne') hclose
  exact ⟨out, yield?_of_product hp hout, hvalue.trans Decimal.value_zero⟩

end Walk

namespace Book

variable {book : Book} {amount : Decimal} {w : Walk}

/-- For an amount that they fill the bids pay the notional if the product of the two is a decimal, or
is rounded by too little to move the quotient, or is too large while the average price is a decimal.
Wherever the quotient is the notional, it is moved by at most half of its last place. A product of at
most half of the last place pays nothing. -/
theorem recovers_notional (hpos : 0 < amount.value) (hfills : w.Fills book amount) :
    ∃ out, book.outputFor amount .bids = .ok out ∧
      (amount.value * w.notional.value ∈ Set.range Decimal.value →
        out.value = w.notional.value) ∧
      (∀ p, amount.mul? w.notional = some p →
        (w.drift amount p * (2 * pow10 Decimal.maxScale) < 1 → out.value = w.notional.value) ∧
        (p.div? w.quantity = some out → out.value = w.notional.value →
          w.drift amount p * (2 * out.unit) ≤ 1)) ∧
      (amount.mul? w.notional = none →
        w.notional.value / amount.value ∈ Set.range Decimal.value →
        out.value = w.notional.value) ∧
      (|amount.value * w.notional.value| * (2 * pow10 Decimal.maxScale) ≤ 1 → out.value = 0) := by
  have hfilled := hfills.quantity
  have paid : ∀ {x : ℚ}, (∃ out, w.yield? amount .bids = some out ∧ out.value = x) →
      ((w.yield? amount .bids).getD .zero).value = x := by
    rintro x ⟨out, hout, hvalue⟩
    rw [hout]
    exact hvalue
  refine ⟨_, outputFor_of_complete hpos hfills.run hfills.complete .bids, ?product, ?rounded, ?overflow, ?small⟩
  case product => exact fun hmem => paid (Walk.exists_yield_of_mem hpos hfilled hmem)
  case rounded =>
    intro p hp
    refine ⟨fun hdrift => paid (Walk.exists_yield_of_drift hpos hfilled hp hdrift), ?_⟩
    exact fun hout hvalue => Walk.drift_le_of_recovers hpos hfilled hout hvalue
  case overflow =>
    exact fun hp hmem =>
      paid (Walk.exists_yield_of_overflow hpos hfills.complete hfilled hp hmem)
  case small => exact fun hsmall => paid (Walk.exists_yield_of_small hpos hfilled hsmall)

/-- Seven are sold into two levels of five, at eleven and at ten. -/
theorem recovers_notional_seventy_five :
    let level (price : Int) (h : price.natAbs < Decimal.bound) : Level :=
      ⟨⟨price, 0, h, by decide⟩, ⟨5, 0, by decide, by decide⟩⟩
    let book : Book := [level 11 (by decide), level 10 (by decide)]
    let amount : Decimal := ⟨7, 0, by decide, by decide⟩
    let w : Walk := ⟨amount, ⟨75, 0, by decide, by decide⟩, true⟩
    0 < amount.value ∧ w.Fills book amount ∧
      ∃ out, book.outputFor amount .bids = .ok out ∧ out.value = 75 := by
  intro level book amount w
  have hpos : 0 < amount.value := Decimal.value_pos_iff.mpr (by decide)
  have hfills : w.Fills book amount := ⟨by decide +kernel, rfl, rfl⟩
  have hnotional : w.notional.value = 75 := by decide +kernel
  obtain ⟨out, hout, hproduct, -⟩ := recovers_notional hpos hfills
  exact ⟨hpos, hfills, out, hout,
    (hproduct ⟨⟨525, 0, by decide, by decide⟩, by decide +kernel⟩).trans hnotional⟩

/-- One is bid for one unit, and the smallest part of it with eighteen places is sold for nothing. -/
theorem not_recovers_notional : ¬ ∀ (book : Book) (amount : Decimal) (w : Walk), book.IsSound →
    0 < amount.value → w.Fills book amount →
    ∃ out, book.outputFor amount .bids = .ok out ∧ out.value = w.notional.value := by
  intro hrecovers
  let one : Decimal := ⟨1, 0, by decide, by decide⟩
  let amount : Decimal := ⟨1, 18, by decide, by decide⟩
  have hsound : Book.IsSound [⟨one, one⟩] := List.forall_mem_singleton.mpr (by decide)
  have hpos : 0 < amount.value := Decimal.value_pos_iff.mpr (by decide)
  have hfills : Walk.Fills ⟨amount, amount, true⟩ [⟨one, one⟩] amount :=
    ⟨by decide +kernel, rfl, rfl⟩
  have hnothing : Book.outputFor [⟨one, one⟩] amount .bids =
      .ok ⟨0, 28, by decide, by decide⟩ := by decide +kernel
  obtain ⟨out, hout, hvalue⟩ := hrecovers _ _ _ hsound hpos hfills
  obtain rfl := Except.ok.inj (hout.symm.trans hnothing)
  exact absurd (Decimal.value_pos_iff.mp (hvalue ▸ hpos)) (lt_irrefl 0)

end Book
end QuoteDesk
