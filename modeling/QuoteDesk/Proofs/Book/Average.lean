import QuoteDesk.Proofs.Book.Growth
import QuoteDesk.Proofs.Decimal.Range
/-!
The average price of an amount. It always has a decimal, for it lies between the prices of the levels. Where
the best price comes first, every level that is added is no better than the average so far. Main statement:
there no amount has a better average than a smaller one, exactly as well as rounded.
-/
namespace QuoteDesk

variable {book : Book} {a b : Decimal} {w w' : Walk} {side : BookSide} {x y : ℚ}

/-- The better one of two prices is the higher one on bids and the lower one on asks. -/
def BookSide.sign : BookSide → ℚ
  | .bids => 1
  | .asks => -1

namespace Book

theorem isBestFirst_iff : book.IsBestFirst side ↔
    book.Pairwise fun l m => side.sign * m.price.value ≤ side.sign * l.price.value := by
  cases side with
  | bids => simp only [IsBestFirst, BookSide.sign, one_mul]
  | asks => simp only [IsBestFirst, BookSide.sign, neg_one_mul, neg_le_neg_iff]

/-- No more is added to the cost than a bound on the prices allows, with either sign. -/
theorem mul_cost_sub_le {sign bound : ℚ} (hbook : book.IsStocked)
    (hprices : ∀ l ∈ book, sign * l.price.value ≤ bound) (hx : 0 ≤ x) (hle : x ≤ y)
    (hdepth : y ≤ book.depth) : sign * (book.cost y - book.cost x) ≤ bound * (y - x) := by
  induction book generalizing x y with
  | nil =>
    obtain rfl : x = y := le_antisymm hle (hdepth.trans hx)
    rw [sub_self, sub_self, mul_zero, mul_zero]
  | cons l rest ih =>
    have hrest : y - min l.quantity.value y ≤ depth rest := by
      rw [depth_cons] at hdepth
      rcases le_total l.quantity.value y with hfull | hpart
      · rw [min_eq_left hfull]
        exact sub_le_iff_le_add'.mpr hdepth
      · rw [min_eq_right hpart, sub_self]
        exact hbook.rest.depth_nonneg
    have hothers := ih hbook.rest (fun m hm => hprices m (List.mem_cons_of_mem _ hm))
      (sub_nonneg.mpr (min_le_right _ _)) (sub_min_le_sub_min l.quantity.value hle) hrest
    have hlevel := mul_le_mul_of_nonneg_right (hprices l List.mem_cons_self)
      (sub_nonneg.mpr (min_le_min_left l.quantity.value hle))
    rw [cost, cost]
    linarith

/-- Where the best price comes first, the cost of a larger amount is no better than in proportion. -/
theorem sign_mul_cost_le (hbook : book.IsStocked) (hbest : book.IsBestFirst side) (hx : 0 ≤ x)
    (hle : x ≤ y) (hdepth : y ≤ book.depth) :
    side.sign * (book.cost y * x) ≤ side.sign * (book.cost x * y) := by
  rw [isBestFirst_iff] at hbest
  induction book generalizing x y with
  | nil => simp only [cost, zero_mul, le_refl]
  | cons l rest ih =>
    obtain ⟨hhead, htail⟩ := List.pairwise_cons.mp hbest
    rcases le_total l.quantity.value x with hfull | hpart
    · have hrest : y - l.quantity.value ≤ depth rest :=
        sub_le_iff_le_add'.mpr ((depth_cons l rest).symm ▸ hdepth)
      have hleft := sub_nonneg.mpr hfull
      have hless := sub_le_sub_right hle l.quantity.value
      have hothers := ih hbook.rest htail hleft hless hrest
      have hadded := mul_le_mul_of_nonneg_left
        (mul_cost_sub_le hbook.rest hhead hleft hless hrest) (hbook l List.mem_cons_self)
      rw [cost_of_full hfull, cost_of_full (hfull.trans hle)]
      linarith
    · have hprices : ∀ m ∈ l :: rest, side.sign * m.price.value ≤ side.sign * l.price.value :=
        List.forall_mem_cons.mpr ⟨le_refl _, hhead⟩
      have hadded := mul_le_mul_of_nonneg_right
        (mul_cost_sub_le hbook hprices (le_refl 0) (hx.trans hle) hdepth) hx
      rw [cost_zero hbook] at hadded
      rw [cost_of_part hbook.rest hpart]
      linarith

/-- The average over an amount lies between the smallest decimal and the largest one. -/
theorem cost_bounds (hbook : book.IsSound) (hx : 0 ≤ x) (hdepth : x ≤ book.depth) :
    book.cost x ≤ (Decimal.bound - 1) * x ∧ x ≤ (Decimal.bound - 1) * book.cost x := by
  have hlow : ∀ l ∈ book, -1 * l.price.value ≤ -(1 / pow10 Decimal.maxScale : ℚ) := by
    intro l hl
    rw [neg_one_mul, neg_le_neg_iff, div_le_iff₀ (Nat.cast_pos.mpr (pow10_pos _))]
    exact Decimal.one_le_value_mul (hbook.price_pos hl)
  have hhigh : ∀ l ∈ book, 1 * l.price.value ≤ Decimal.bound - 1 := by
    intro l hl
    rw [one_mul]
    exact l.price.value_le
  have hleast := mul_cost_sub_le hbook.isStocked hlow (le_refl 0) hx hdepth
  have hmost := mul_cost_sub_le hbook.isStocked hhigh (le_refl 0) hx hdepth
  rw [cost_zero hbook.isStocked, sub_zero, sub_zero] at hleast hmost
  refine ⟨by rwa [one_mul] at hmost, ?_⟩
  rw [neg_one_mul, neg_mul, neg_le_neg_iff, one_div, inv_mul_le_iff₀ (Nat.cast_pos.mpr (pow10_pos _))]
    at hleast
  have hroom : ((pow10 Decimal.maxScale : Nat) : ℚ) ≤ Decimal.bound - 1 := by decide +kernel
  exact hleast.trans (mul_le_mul_of_nonneg_right hroom (cost_nonneg hbook hx))

end Book

namespace Walk

structure Settles (w : Walk) (book : Book) (amount : ℚ) : Prop where
  complete : w.complete = true
  quantity : w.quantity.value = amount
  notional : w.notional.value = book.cost amount

theorem exists_settles (h : (Stage.start a).IsExact book) (hbook : book.IsStocked) (hpos : 0 ≤ a.value)
    (hdepth : a.value ≤ book.depth) : ∃ w, run book a = .ok (some w) ∧ w.Settles book a.value := by
  obtain ⟨w, hrun, -⟩ := h.resume_eq hbook hpos
  obtain ⟨hquantity, hnotional, hcomplete⟩ := totals_of_exact h hbook hpos hrun
  rw [min_eq_left hdepth] at hquantity
  exact ⟨w, hrun, hcomplete.mpr hdepth, hquantity, hnotional⟩

theorem Settles.totals_pos (h : w.Settles book x) (hbook : book.IsSound) (hpos : 0 < x)
    (hdepth : x ≤ book.depth) (side : BookSide) :
    0 < (w.ratio side).1.value ∧ 0 < (w.ratio side).2.value := by
  have hquantity : 0 < w.quantity.value := h.quantity.symm ▸ hpos
  have hnotional : 0 < w.notional.value := h.notional.symm ▸ Book.cost_pos hbook hpos hdepth
  cases side with
  | bids => exact ⟨hnotional, hquantity⟩
  | asks => exact ⟨hquantity, hnotional⟩

theorem Settles.exists_averagePrice (h : w.Settles book x) (hbook : book.IsSound) (hpos : 0 < x)
    (hdepth : x ≤ book.depth) (side : BookSide) : ∃ price, w.averagePrice? side = some price := by
  obtain ⟨hnum, hden⟩ := h.totals_pos hbook hpos hdepth side
  obtain ⟨hmost, hleast⟩ := Book.cost_bounds hbook hpos.le hdepth
  rw [averagePrice?, if_pos h.complete]
  refine Decimal.exists_div_of_le hnum.le hden ((div_le_iff₀ hden).mpr ?_)
  cases side with
  | bids =>
    show w.notional.value ≤ _ * w.quantity.value
    rwa [h.notional, h.quantity]
  | asks =>
    show w.quantity.value ≤ _ * w.notional.value
    rwa [h.notional, h.quantity]

/-- Let the walks of two amounts that a book covers be without rounding. Where the prices fall, the larger
amount has no higher average notional for its quantity, and where they rise no lower one. So with the best
price first the average price of a side, rounded, is no larger for the larger amount. -/
theorem average_falls (hbook : book.IsSound) (hpos : 0 < a.value) (hle : a.value ≤ b.value)
    (hdepth : b.value ≤ book.depth) (ha : (Stage.start a).IsExact book)
    (hb : (Stage.start b).IsExact book) :
    ∃ w w', run book a = .ok (some w) ∧ run book b = .ok (some w') ∧
      (book.IsBestFirst .bids →
        w'.notional.value * w.quantity.value ≤ w.notional.value * w'.quantity.value) ∧
      (book.IsBestFirst .asks →
        w.notional.value * w'.quantity.value ≤ w'.notional.value * w.quantity.value) ∧
      ∀ side, book.IsBestFirst side → ∃ price price', w.averagePrice? side = some price ∧
        w'.averagePrice? side = some price' ∧ price'.value ≤ price.value := by
  have hstocked := hbook.isStocked
  have hpos' := hpos.trans_le hle
  have hdepth' := hle.trans hdepth
  obtain ⟨w, hrun, hw⟩ := exists_settles ha hstocked hpos.le hdepth'
  obtain ⟨w', hrun', hw'⟩ := exists_settles hb hstocked hpos'.le hdepth
  have hcross : ∀ side : BookSide, book.IsBestFirst side →
      side.sign * (w'.notional.value * w.quantity.value) ≤
        side.sign * (w.notional.value * w'.quantity.value) := by
    intro side hbest
    rw [hw.quantity, hw.notional, hw'.quantity, hw'.notional]
    exact Book.sign_mul_cost_le hstocked hbest hpos.le hle hdepth
  have hbids : book.IsBestFirst .bids →
      w'.notional.value * w.quantity.value ≤ w.notional.value * w'.quantity.value := by
    intro hbest
    have hle := hcross .bids hbest
    rwa [BookSide.sign, one_mul, one_mul] at hle
  have hasks : book.IsBestFirst .asks →
      w.notional.value * w'.quantity.value ≤ w'.notional.value * w.quantity.value := by
    intro hbest
    have hle := hcross .asks hbest
    rwa [BookSide.sign, neg_one_mul, neg_one_mul, neg_le_neg_iff] at hle
  refine ⟨w, w', hrun, hrun', hbids, hasks, fun side hbest => ?_⟩
  obtain ⟨price, hprice⟩ := hw.exists_averagePrice hbook hpos hdepth' side
  obtain ⟨price', hprice'⟩ := hw'.exists_averagePrice hbook hpos' hdepth side
  refine ⟨price, price', hprice, hprice', ?_⟩
  obtain ⟨-, hden⟩ := hw.totals_pos hbook hpos hdepth' side
  obtain ⟨hnum', hden'⟩ := hw'.totals_pos hbook hpos' hdepth side
  rw [averagePrice?, if_pos hw.complete] at hprice
  rw [averagePrice?, if_pos hw'.complete] at hprice'
  refine Decimal.div_mono hnum'.le hden' hden ((div_le_div_iff₀ hden' hden).mpr ?_) hprice' hprice
  cases side with
  | bids => exact hbids hbest
  | asks =>
    have hle := hasks hbest
    show w'.quantity.value * w.notional.value ≤ w.quantity.value * w'.notional.value
    linarith

/-- Five are sold at eleven, and two more at ten. -/
theorem average_falls_two_bids :
    let five : Decimal := ⟨5, 0, by decide, by decide⟩
    let seven : Decimal := ⟨7, 0, by decide, by decide⟩
    let book : Book := [⟨⟨11, 0, by decide, by decide⟩, five⟩, ⟨⟨10, 0, by decide, by decide⟩, five⟩]
    book.IsSound ∧ 0 < five.value ∧ five.value ≤ seven.value ∧ seven.value ≤ book.depth ∧
      (Stage.start five).IsExact book ∧ (Stage.start seven).IsExact book ∧ book.IsBestFirst .bids ∧
      ∃ w w', run book five = .ok (some w) ∧ run book seven = .ok (some w') ∧
        w'.notional.value * w.quantity.value ≤ w.notional.value * w'.quantity.value ∧
        ∃ price price', w.averagePrice? .bids = some price ∧ w'.averagePrice? .bids = some price' ∧
          price'.value ≤ price.value := by
  intro five seven book
  have hsound : book.IsSound :=
    List.forall_mem_cons.mpr ⟨by decide, List.forall_mem_singleton.mpr (by decide)⟩
  have hpos : 0 < five.value := Decimal.value_pos_iff.mpr (by decide)
  have hle : five.value ≤ seven.value := Decimal.le_iff.mp (by decide)
  have hdepth : seven.value ≤ book.depth := by decide +kernel
  have hwhole : ∀ l ∈ book, l.quantity.scale ≤ 0 ∧ l.price.scale ≤ 0 := by decide
  have hexact : (Stage.start five).IsExact book :=
    Stage.isExact_of_scales (by decide) hsound hwhole hpos.le (le_refl 0) (by decide +kernel)
      (by decide +kernel)
  have hexact' : (Stage.start seven).IsExact book :=
    Stage.isExact_of_scales (by decide) hsound hwhole (hpos.le.trans hle) (le_refl 0)
      (by decide +kernel) (by decide +kernel)
  have hbest : book.IsBestFirst .bids := List.pairwise_pair.mpr (Decimal.le_iff.mp (by decide))
  obtain ⟨w, w', hrun, hrun', hbids, -, haverage⟩ :=
    average_falls hsound hpos hle hdepth hexact hexact'
  exact ⟨hsound, hpos, hle, hdepth, hexact, hexact', hbest, w, w', hrun, hrun', hbids hbest,
    haverage .bids hbest⟩

end Walk
end QuoteDesk
