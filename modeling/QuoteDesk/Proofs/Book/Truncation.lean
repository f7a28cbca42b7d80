import QuoteDesk.Proofs.Book.Depth
import QuoteDesk.Proofs.Decimal.Order
/-!
What is quoted beside the exact output. The decimal output is cut off at the smallest unit, but it is
rounded before that, up as well as down. So more than the exact output is quoted exactly where rounding
has carried it to a whole unit or past one, and by no more than rounding has moved it.
-/
namespace QuoteDesk

variable {book : Book} {amount out : Decimal} {side : BookSide} {decimals : Nat}

namespace Walk

variable {w : Walk} {slack : ℚ}

def exactYield (w : Walk) (amount : Decimal) (side : BookSide) : ℚ :=
  amount.value * (w.ratio side).1.value / (w.ratio side).2.value

/-- How an output comes about, and how far rounding can have moved it on this way. -/
inductive Yields (w : Walk) (amount : Decimal) (side : BookSide) (out : Decimal) : ℚ → Prop
  | product {p : Decimal} (hp : amount.mul? (w.ratio side).1 = some p)
      (hout : p.div? (w.ratio side).2 = some out) :
      Yields w amount side out
        (|p.value - amount.value * (w.ratio side).1.value| / (w.ratio side).2.value +
          1 / (2 * out.unit))
  | average {price : Decimal} (hprice : (w.ratio side).1.div? (w.ratio side).2 = some price)
      (hout : price.mul? amount = some out) :
      Yields w amount side out
        (|price.value - (w.ratio side).1.value / (w.ratio side).2.value| * amount.value +
          1 / (2 * out.unit))

theorem exists_yields (hcomplete : w.complete = true) (h : w.yield? amount side = some out) :
    ∃ slack, w.Yields amount side out slack := by
  unfold yield? at h
  split at h
  · next out' hout =>
    obtain rfl := Option.some.inj h
    obtain ⟨p, hp, hquotient⟩ := Option.bind_eq_some_iff.mp hout
    exact ⟨_, .product hp hquotient⟩
  · obtain ⟨price, hprice, hout⟩ := Option.bind_eq_some_iff.mp h
    rw [averagePrice?, if_pos hcomplete] at hprice
    exact ⟨_, .average hprice hout⟩

theorem Yields.abs_sub_le (hpos : 0 < amount.value) (hden : 0 < (w.ratio side).2.value)
    (h : w.Yields amount side out slack) : |out.value - w.exactYield amount side| ≤ slack := by
  have last : ∀ {x : ℚ}, |out.value - x| * (2 * out.unit) ≤ 1 → |out.value - x| ≤ 1 / (2 * out.unit) :=
    fun hlast => (le_div_iff₀ (mul_pos two_pos out.unit_cast_pos)).mpr hlast
  cases h with
  | @product p hp hout =>
    have hmoved : |p.value / (w.ratio side).2.value - w.exactYield amount side| =
        |p.value - amount.value * (w.ratio side).1.value| / (w.ratio side).2.value := by
      rw [exactYield, ← sub_div, abs_div, abs_of_pos hden]
    have hlast := last (Decimal.abs_div_sub_le hden.ne' hout)
    have htriangle := abs_sub_le out.value (p.value / (w.ratio side).2.value)
      (w.exactYield amount side)
    linarith
  | @average price hprice hout =>
    have hmoved : |price.value * amount.value - w.exactYield amount side| =
        |price.value - (w.ratio side).1.value / (w.ratio side).2.value| * amount.value := by
      rw [exactYield, mul_div_assoc, mul_comm amount.value, ← sub_mul, abs_mul, abs_of_pos hpos]
    have hlast := last (Decimal.abs_mul_sub_le hout)
    have htriangle := abs_sub_le out.value (price.value * amount.value)
      (w.exactYield amount side)
    linarith

theorem Stage.Reaches.totals_nonneg {p q : Stage} {left : Book} (h : p.Reaches book q left)
    (hbook : book.IsSound) (hunfilled : 0 ≤ p.unfilled.value) (hquantity : 0 ≤ p.quantity.value)
    (hnotional : 0 ≤ p.notional.value) : 0 ≤ q.quantity.value ∧ 0 ≤ q.notional.value := by
  induction h with
  | here => exact ⟨hquantity, hnotional⟩
  | @level p p' q l rest left hpos hnext _ ih =>
    have hstock : 0 ≤ l.quantity.value := hbook.isStocked l List.mem_cons_self
    have hprice : 0 ≤ l.price.value := (hbook.price_pos List.mem_cons_self).le
    have htake := Stage.take_nonneg hstock hunfilled
    obtain ⟨product, hproduct, hsum, hadded, -⟩ := Stage.next_eq_some_iff.mp hnext
    exact ih hbook.rest
      (Stage.next_bounds hstock hunfilled hnext).1
      (Decimal.nonneg_of_add hquantity htake hadded)
      (Decimal.nonneg_of_add hnotional (Decimal.nonneg_of_mul hprice htake hproduct) hsum)

theorem ratio_nonneg (hbook : book.IsSound) (hpos : 0 < amount.value)
    (hrun : run book amount = .ok (some w)) (side : BookSide) : 0 ≤ (w.ratio side).1.value := by
  obtain ⟨q, left, hreach, -, rfl⟩ := run_eq_some_iff.mp hrun
  have hzero : 0 ≤ Decimal.zero.value := Decimal.value_zero.ge
  obtain ⟨hquantity, hnotional⟩ := hreach.totals_nonneg hbook hpos.le hzero hzero
  cases side with
  | bids => exact hnotional
  | asks => exact hquantity

theorem Yields.nonneg (hpos : 0 < amount.value) (hnum : 0 ≤ (w.ratio side).1.value)
    (hden : 0 < (w.ratio side).2.value) (h : w.Yields amount side out slack) : 0 ≤ out.value := by
  cases h with
  | product hp hout => exact Decimal.nonneg_of_div (Decimal.nonneg_of_mul hpos.le hnum hp) hden hout
  | average hprice hout => exact Decimal.nonneg_of_mul (Decimal.nonneg_of_div hnum hden hprice) hpos.le hout

/-- A whole number that a rounded number has reached and the exact one has not lies within the slack. A
fraction with a small denominator is farther from the next whole number than that. -/
theorem floor_le_of_denominator {x y room : ℚ} {g n : Nat} (hg : 0 < g) (hx : x * g = n)
    (hy : y ≤ x + room) (hroom : room * g < 1) : ⌊y⌋₊ ≤ ⌊x⌋₊ := by
  have hpos : (0 : ℚ) < g := Nat.cast_pos.mpr hg
  rcases le_or_gt y 0 with hneg | hnonneg
  · rw [Nat.floor_of_nonpos hneg]
    exact Nat.zero_le _
  have hxnonneg : 0 ≤ x := nonneg_of_mul_nonneg_left (hx ▸ Nat.cast_nonneg n) hpos
  apply Nat.le_floor
  by_contra hpast
  rw [not_le] at hpast
  have hreached := Nat.floor_le hnonneg.le
  -- over the denominator the two are whole, so they are one apart at least
  have hcross : (n : ℚ) < (⌊y⌋₊ * g : Nat) := by
    rw [Nat.cast_mul, ← hx]
    exact mul_lt_mul_of_pos_right hpast hpos
  have hapart : (n : ℚ) + 1 ≤ (⌊y⌋₊ * g : Nat) := by
    exact_mod_cast Nat.cast_lt.mp hcross
  have hwithin : (⌊y⌋₊ : ℚ) * g ≤ (x + room) * g :=
    mul_le_mul_of_nonneg_right (hreached.trans hy) hpos.le
  rw [Nat.cast_mul] at hapart
  rw [add_mul, hx] at hwithin
  linarith

end Walk

namespace Book

variable {w : Walk}

/-- What is quoted for an amount that a walk covers is at most the exact output, cut off, unless the
rounded output fits and has reached a whole unit that the exact one has not. It has not where it is
rounded down, nor where the exact output in units has a denominator too small for the slack of its
rounding. It is never more than the slack takes it to. -/
theorem output_le_floor_iff (hbook : book.IsSound) (hpos : 0 < amount.value)
    (hs : decimals ≤ Decimal.maxScale) (hrun : Walk.run book amount = .ok (some w))
    (hcomplete : w.complete = true) (hden : 0 < (w.ratio side).2.value) :
    ∃ out units, book.outputFor amount side = .ok out ∧
      book.output amount side decimals = .ok units ∧
      (units.val ≤ ⌊w.exactYield amount side * pow10 decimals⌋₊ ↔
        (⌊out.value * pow10 decimals⌋₊ < Units.size →
          ⌊out.value * pow10 decimals⌋₊ ≤ ⌊w.exactYield amount side * pow10 decimals⌋₊)) ∧
      (out.value ≤ w.exactYield amount side →
        units.val ≤ ⌊w.exactYield amount side * pow10 decimals⌋₊) ∧
      (units = .zero ∨ ∃ slack, w.Yields amount side out slack ∧
        units.val ≤ ⌊(w.exactYield amount side + slack) * pow10 decimals⌋₊ ∧
        ∀ g n : Nat, 0 < g → w.exactYield amount side * pow10 decimals * g = n →
          slack * pow10 decimals * g < 1 →
          units.val ≤ ⌊w.exactYield amount side * pow10 decimals⌋₊) := by
  have hunit : (0 : ℚ) < pow10 decimals := Nat.cast_pos.mpr (pow10_pos decimals)
  have hnum := Walk.ratio_nonneg hbook hpos hrun side
  have hfor := outputFor_of_complete hpos hrun hcomplete side
  have hout : book.output amount side decimals =
      .ok ((((w.yield? amount side).getD .zero).toUnits? decimals).getD .zero) := by
    rw [output, hfor]
    rfl
  refine ⟨_, _, hfor, hout, ?_⟩
  cases hyield : w.yield? amount side with
  | none =>
    have hnothing : ((Decimal.zero.toUnits? decimals).getD .zero).val = 0 :=
      congrArg Units.val (Decimal.units_zero decimals)
    simp only [Option.getD_none, hnothing, Decimal.value_zero, zero_mul, Nat.floor_zero]
    exact ⟨by simp, fun _ => Nat.zero_le _, .inl (Decimal.units_zero decimals)⟩
  | some out =>
    obtain ⟨slack, hyields⟩ := Walk.exists_yields hcomplete hyield
    have hval := Decimal.val_units (hyields.nonneg hpos hnum hden) hs
    have hle : ((out.toUnits? decimals).getD .zero).val ≤ ⌊out.value * pow10 decimals⌋₊ := by
      rw [hval]
      split
      · exact le_refl _
      · exact Nat.zero_le _
    have hslack : out.value * pow10 decimals ≤
        w.exactYield amount side * pow10 decimals + slack * pow10 decimals := by
      rw [← add_mul]
      have habs := (le_abs_self _).trans (hyields.abs_sub_le hpos hden)
      exact mul_le_mul_of_nonneg_right (by linarith) hunit.le
    rw [Option.getD_some]
    refine ⟨?reached, ?down, .inr ⟨slack, hyields, ?most, ?denominator⟩⟩
    case reached =>
      rw [hval]
      split
      · next hfits => exact ⟨fun h _ => h, fun h => h hfits⟩
      · next hlarge => exact ⟨fun _ h => absurd h hlarge, fun _ => Nat.zero_le _⟩
    case down =>
      intro hdown
      exact hle.trans (Nat.floor_le_floor (mul_le_mul_of_nonneg_right hdown hunit.le))
    case most =>
      rw [add_mul]
      exact hle.trans (Nat.floor_le_floor hslack)
    case denominator =>
      intro g n hg hwhole hroom
      exact hle.trans (Walk.floor_le_of_denominator hg hwhole hslack hroom)

/-- Two thirds are rounded up at the last of 28 places, which does not reach the sixth. -/
theorem output_le_floor_iff_two_thirds :
    let one : Decimal := ⟨1, 0, by decide, by decide⟩
    let price : Decimal := ⟨15, 1, by decide, by decide⟩
    let book : Book := [⟨price, one⟩]
    let w : Walk := ⟨one, price, true⟩
    book.IsSound ∧ 0 < one.value ∧ 6 ≤ Decimal.maxScale ∧ Walk.run book one = .ok (some w) ∧
      w.complete = true ∧ 0 < (w.ratio .asks).2.value ∧
      ∃ out units, book.outputFor one .asks = .ok out ∧ w.exactYield one .asks < out.value ∧
        book.output one .asks 6 = .ok units ∧
        units.val ≤ ⌊w.exactYield one .asks * pow10 6⌋₊ := by
  intro one price book w
  have hsound : book.IsSound := List.forall_mem_singleton.mpr (by decide)
  have hpos : 0 < one.value := Decimal.value_pos_iff.mpr (by decide)
  have hrun : Walk.run book one = .ok (some w) := by decide +kernel
  have hden : 0 < (w.ratio .asks).2.value := Decimal.value_pos_iff.mpr (by decide)
  have hrounded : book.outputFor one .asks =
      .ok ⟨6666666666666666666666666667, 28, by decide, by decide⟩ := by decide +kernel
  have hplaces : 6 ≤ Decimal.maxScale := by decide
  obtain ⟨out, units, hout, hunits, hreached, -⟩ :=
    output_le_floor_iff hsound hpos hplaces hrun rfl hden
  obtain rfl := Except.ok.inj (hrounded.symm.trans hout)
  exact ⟨hsound, hpos, hplaces, hrun, rfl, hden, _, units, hout, by decide +kernel, hunits,
    hreached.mpr fun _ => by decide +kernel⟩

/-- A hundred thousand million is offered for one and a half each. The output has room for eighteen
places, and two thirds of the last one are rounded up. -/
theorem not_output_le_floor : ¬ ∀ (book : Book) (amount : Decimal) (side : BookSide) (decimals : Nat)
    (w : Walk), book.IsSound → 0 < amount.value → decimals ≤ Decimal.maxScale →
    Walk.run book amount = .ok (some w) → w.complete = true → 0 < (w.ratio side).2.value →
    ∃ units, book.output amount side decimals = .ok units ∧
      units.val ≤ ⌊w.exactYield amount side * pow10 decimals⌋₊ := by
  intro hcut
  let price : Decimal := ⟨15, 1, by decide, by decide⟩
  let amount : Decimal := ⟨100000000000, 0, by decide, by decide⟩
  let w : Walk := ⟨amount, ⟨1500000000000, 1, by decide, by decide⟩, true⟩
  have hsound : Book.IsSound [⟨price, amount⟩] := List.forall_mem_singleton.mpr (by decide)
  have hpos : 0 < amount.value := Decimal.value_pos_iff.mpr (by decide)
  have hrun : Walk.run [⟨price, amount⟩] amount = .ok (some w) := by decide +kernel
  have hden : 0 < (w.ratio .asks).2.value := Decimal.value_pos_iff.mpr (by decide)
  have hquoted : Book.output [⟨price, amount⟩] amount .asks 18 =
      .ok ⟨66666666666666666666666666667, by decide⟩ := by decide +kernel
  obtain ⟨units, hunits, hle⟩ := hcut _ _ _ 18 _ hsound hpos (by decide) hrun rfl hden
  obtain rfl := Except.ok.inj (hquoted.symm.trans hunits)
  exact absurd hle (by decide +kernel)

end Book
end QuoteDesk
