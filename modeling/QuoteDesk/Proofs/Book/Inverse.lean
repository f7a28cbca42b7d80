import QuoteDesk.Proofs.Book.Average
/-!
Books that offer the same trade from the other end. The inverse of a level has the reciprocal price, for as
much as the level is worth. Main statement: what an amount brings on a book costs that amount on the inverse
book, and the average price of the bids is that of the asks. Whatever is walked there stays in range, so it
only has to be left unrounded.
-/
namespace QuoteDesk

variable {book inverse : Book} {a : Decimal} {x : ℚ}

/-- The level at the reciprocal price, for what the other one is worth. -/
structure Level.Inverts (l m : Level) : Prop where
  price : l.price.value * m.price.value = 1
  quantity : m.quantity.value = l.price.value * l.quantity.value

namespace Book

def Inverts (book inverse : Book) : Prop := List.Forall₂ Level.Inverts book inverse

theorem Inverts.isSound (h : book.Inverts inverse) (hbook : book.IsSound) : inverse.IsSound := by
  induction h with
  | nil => exact hbook
  | @cons l m book inverse hlevel _ ih =>
    have hprice := hbook.price_pos (l := l) List.mem_cons_self
    have hprice' : 0 < m.price.value :=
      (mul_pos_iff_of_pos_left hprice).mp (hlevel.price ▸ one_pos)
    have hquantity : 0 ≤ m.quantity.value :=
      hlevel.quantity ▸ mul_nonneg hprice.le (hbook.isStocked l List.mem_cons_self)
    exact List.forall_mem_cons.mpr ⟨Level.isSound_iff.mpr
      ⟨Decimal.value_pos_iff.mp hprice', Decimal.value_nonneg_iff.mp hquantity⟩, ih hbook.rest⟩

theorem Inverts.depth_eq (h : book.Inverts inverse) (hbook : book.IsStocked) :
    inverse.depth = book.cost book.depth := by
  induction h with
  | nil => rfl
  | @cons l m book inverse hlevel _ ih =>
    have hdepth := hbook.rest.depth_nonneg
    rw [depth_cons, depth_cons, cost_of_full (le_add_of_nonneg_right hdepth), add_sub_cancel_left,
      hlevel.quantity, ih hbook.rest]

/-- Both books come to the end of a level together, so the inverse one takes a cost back to the amount. -/
theorem Inverts.cost_cost (h : book.Inverts inverse) (hbook : book.IsSound) (hx : 0 ≤ x)
    (hdepth : x ≤ book.depth) : inverse.cost (book.cost x) = x := by
  induction h generalizing x with
  | nil => exact le_antisymm hx hdepth
  | @cons l m book inverse hlevel hrest ih =>
    have hprice := hbook.price_pos (l := l) List.mem_cons_self
    have hback : ∀ y, m.price.value * (l.price.value * y) = y := by
      intro y
      rw [← mul_assoc, mul_comm m.price.value, hlevel.price, one_mul]
    rcases le_total l.quantity.value x with hfull | hpart
    · rw [depth_cons] at hdepth
      have hleft := sub_nonneg.mpr hfull
      have hcost := cost_nonneg hbook.rest hleft
      rw [cost_of_full hfull, cost_of_full (hlevel.quantity ▸ le_add_of_nonneg_right hcost),
        hlevel.quantity, hback, add_sub_cancel_left,
        ih hbook.rest hleft (sub_le_iff_le_add'.mpr hdepth), add_sub_cancel]
    · have hwithin : l.price.value * x ≤ m.quantity.value :=
        hlevel.quantity ▸ mul_le_mul_of_nonneg_left hpart hprice.le
      rw [cost_of_part hbook.rest.isStocked hpart,
        cost_of_part (Inverts.isSound hrest hbook.rest).isStocked hwithin, hback]

end Book

namespace Walk

namespace Stage

variable {p q : Stage} {l : Level} {rest : Book}

/-- No operation at a level rounds the result that it has, if it has one. -/
structure LeavesExact (p : Stage) (l : Level) : Prop where
  product : ∀ d, l.price.mul? (p.take l) = some d → d.value = l.price.value * (p.take l).value
  notional : ∀ d e, l.price.mul? (p.take l) = some d → p.notional.add? d = some e →
    e.value = p.notional.value + d.value
  quantity : ∀ d, p.quantity.add? (p.take l) = some d →
    d.value = p.quantity.value + (p.take l).value
  unfilled : ∀ d, p.unfilled.sub? (p.take l) = some d →
    d.value = p.unfilled.value - (p.take l).value

def RoundsNowhere (p : Stage) : Book → Prop
  | [] => True
  | l :: rest => p.unfilled.isPositive = true →
    p.LeavesExact l ∧ ∀ q, p.next l = .ok (some q) → q.RoundsNowhere rest

theorem StepsExactly.leavesExact (h : p.StepsExactly l q) : p.LeavesExact l := by
  obtain ⟨product, hmul, hadd, hfill, hsub⟩ := next_eq_some_iff.mp h.next
  obtain ⟨product', hmul', hproduct⟩ := h.product
  obtain rfl := Option.some.inj (hmul.symm.trans hmul')
  refine ⟨fun d hd => ?_, fun d e hd he => ?_, fun d hd => ?_, fun d hd => ?_⟩
  · obtain rfl := Option.some.inj (hmul.symm.trans hd)
    exact hproduct
  · obtain rfl := Option.some.inj (hmul.symm.trans hd)
    obtain rfl := Option.some.inj (hadd.symm.trans he)
    rw [h.notional, hproduct]
  · obtain rfl := Option.some.inj (hfill.symm.trans hd)
    exact h.quantity
  · obtain rfl := Option.some.inj (hsub.symm.trans hd)
    exact h.unfilled

theorem IsExact.roundsNowhere (h : p.IsExact book) : p.RoundsNowhere book := by
  induction book generalizing p with
  | nil => trivial
  | cons l rest ih =>
    intro hpos
    obtain ⟨q, hstep, hrest⟩ := h hpos
    refine ⟨hstep.leavesExact, fun q' hq' => ?_⟩
    obtain rfl := Option.some.inj (Except.ok.inj (hstep.next.symm.trans hq'))
    exact ih hrest

/-- Where the whole amount and its cost are in range, so is everything on the way to them. -/
theorem RoundsNowhere.isExact (h : p.RoundsNowhere book) (hbook : book.IsSound)
    (hunfilled : 0 ≤ p.unfilled.value) (hquantity : 0 ≤ p.quantity.value)
    (hnotional : 0 ≤ p.notional.value)
    (hamount : p.quantity.value + p.unfilled.value ≤ Decimal.bound - 1)
    (hcost : p.notional.value + book.cost p.unfilled.value ≤ Decimal.bound - 1) :
    p.IsExact book := by
  induction book generalizing p with
  | nil => trivial
  | cons l rest ih =>
    intro hpos
    obtain ⟨hexact, hrest⟩ := h hpos
    have hprice := (hbook.price_pos (l := l) List.mem_cons_self).le
    have htake := take_nonneg (hbook.isStocked l List.mem_cons_self) hunfilled
    have hle := take_le p l
    have hleft := sub_nonneg.mpr hle
    have hlater := Book.cost_nonneg hbook.rest hleft
    have hworth := mul_nonneg hprice htake
    rw [Book.cost, ← value_take] at hcost
    obtain ⟨product, hmul⟩ := Decimal.exists_mul_of_le hprice htake (by linarith)
    have hproduct := hexact.product product hmul
    obtain ⟨notional, hadd⟩ := Decimal.exists_add_of_le hnotional (hproduct ▸ hworth)
      (by rw [hproduct]; linarith)
    obtain ⟨quantity, hfill⟩ := Decimal.exists_add_of_le hquantity htake (by linarith)
    obtain ⟨unfilled, hsub, -⟩ := Decimal.exists_sub htake hle
    have hnotional' := hexact.notional product notional hmul hadd
    have hquantity' := hexact.quantity quantity hfill
    have hunfilled' := hexact.unfilled unfilled hsub
    rw [hproduct] at hnotional'
    have hnext : p.next l = .ok (some ⟨unfilled, quantity, notional⟩) :=
      next_eq_some_iff.mpr ⟨product, hmul, hadd, hfill, hsub⟩
    refine ⟨_, ⟨hnext, ⟨product, hmul, hproduct⟩, hnotional', hquantity', hunfilled'⟩,
      ih (hrest _ hnext) hbook.rest ?_ ?_ ?_ ?_ ?_⟩
    · exact hunfilled' ▸ hleft
    · exact hquantity' ▸ add_nonneg hquantity htake
    · exact hnotional' ▸ add_nonneg hnotional hworth
    · rwa [hquantity', hunfilled', add_add_sub_cancel]
    · rwa [hnotional', hunfilled', add_assoc]

end Stage

/-- Let an amount be within the depth of the bids and its walk without rounding, and let no operation round
when its notional is walked on the inverse book. Then both are covered, and the second walk has the notional
of the first as its quantity and the amount as its notional, at the same average price. -/
theorem inverse_walk (hbook : book.IsSound) (hinverse : book.Inverts inverse) (hpos : 0 < a.value)
    (hdepth : a.value ≤ book.depth) (hexact : (Stage.start a).IsExact book)
    (hback : ∀ w, run book a = .ok (some w) →
      (Stage.start w.notional).RoundsNowhere inverse) :
    ∃ w w', run book a = .ok (some w) ∧ w.complete = true ∧
      run inverse w.notional = .ok (some w') ∧ w'.complete = true ∧
      w'.quantity.value = w.notional.value ∧ w'.notional.value = a.value ∧
      ∃ price, w.averagePrice? .bids = some price ∧ w'.averagePrice? .asks = some price := by
  have hsound := hinverse.isSound hbook
  have hzero : Decimal.zero.value = 0 := Decimal.value_zero
  obtain ⟨w, hrun, hw⟩ := exists_settles hexact hbook.isStocked hpos.le hdepth
  have hcost := hinverse.cost_cost hbook hpos.le hdepth
  have hnotional := (hw.totals_pos hbook hpos hdepth .bids).1
  have hworth : w.notional.value ≤ inverse.depth := by
    rw [hinverse.depth_eq hbook.isStocked, hw.notional]
    exact Book.cost_mono hbook hdepth
  have hexact' : (Stage.start w.notional).IsExact inverse := by
    refine (hback w hrun).isExact hsound hnotional.le hzero.ge hzero.ge ?_ ?_
    · show Decimal.zero.value + w.notional.value ≤ _
      rw [hzero, zero_add]
      exact w.notional.value_le
    · show Decimal.zero.value + inverse.cost w.notional.value ≤ _
      rw [hzero, zero_add, hw.notional, hcost]
      exact a.value_le
  obtain ⟨w', hrun', hw'⟩ := exists_settles hexact' hsound.isStocked hnotional.le hworth
  have hamount : w'.notional.value = a.value := by rw [hw'.notional, hw.notional, hcost]
  obtain ⟨price, hprice⟩ := hw.exists_averagePrice hbook hpos hdepth .bids
  have haverage : w'.averagePrice? .asks = w.averagePrice? .bids := by
    rw [averagePrice?, averagePrice?, if_pos hw.complete, if_pos hw'.complete]
    exact Decimal.div?_congr hw'.quantity (hamount.trans hw.quantity.symm) (hamount ▸ hpos.ne')
  exact ⟨w, w', hrun, hw.complete, hrun', hw'.complete, hw'.quantity, hamount, price, hprice,
    haverage.trans hprice⟩

/-- Twelve are sold at four and at two, for forty-four. -/
theorem inverse_walk_two_levels :
    let amount : Decimal := ⟨12, 0, by decide, by decide⟩
    let bids : Book :=
      [⟨⟨4, 0, by decide, by decide⟩, ⟨10, 0, by decide, by decide⟩⟩,
        ⟨⟨2, 0, by decide, by decide⟩, ⟨6, 0, by decide, by decide⟩⟩]
    let asks : Book :=
      [⟨⟨25, 2, by decide, by decide⟩, ⟨40, 0, by decide, by decide⟩⟩,
        ⟨⟨5, 1, by decide, by decide⟩, ⟨12, 0, by decide, by decide⟩⟩]
    bids.IsSound ∧ bids.Inverts asks ∧ 0 < amount.value ∧ amount.value ≤ bids.depth ∧
      (Stage.start amount).IsExact bids ∧
      (∀ w, run bids amount = .ok (some w) → (Stage.start w.notional).RoundsNowhere asks) ∧
      ∃ w w', run bids amount = .ok (some w) ∧ w.notional.value = 44 ∧
        run asks w.notional = .ok (some w') ∧ w'.quantity.value = 44 ∧
        w'.notional.value = amount.value ∧
        ∃ price, w.averagePrice? .bids = some price ∧ w'.averagePrice? .asks = some price := by
  intro amount bids asks
  let sum : Decimal := ⟨44, 0, by decide, by decide⟩
  have hsound : bids.IsSound :=
    List.forall_mem_cons.mpr ⟨by decide, List.forall_mem_singleton.mpr (by decide)⟩
  have hinverse : bids.Inverts asks :=
    .cons ⟨by decide +kernel, by decide +kernel⟩ (.cons ⟨by decide +kernel, by decide +kernel⟩ .nil)
  have hpos : 0 < amount.value := Decimal.value_pos_iff.mpr (by decide)
  have hdepth : amount.value ≤ bids.depth := by decide +kernel
  have hexact : (Stage.start amount).IsExact bids :=
    Stage.isExact_of_scales (s := 0) (t := 0) (by decide) hsound (by decide) hpos.le (le_refl 0)
      (by decide +kernel) (by decide +kernel)
  have hexact' : (Stage.start sum).IsExact asks :=
    Stage.isExact_of_scales (s := 0) (t := 2) (by decide) (hinverse.isSound hsound) (by decide)
      (Decimal.value_nonneg_iff.mpr (by decide)) (le_refl 0) (by decide +kernel) (by decide +kernel)
  have hrun : run bids amount = .ok (some ⟨amount, sum, true⟩) := by decide +kernel
  have hback : ∀ w, run bids amount = .ok (some w) →
      (Stage.start w.notional).RoundsNowhere asks := by
    intro w hw
    obtain rfl := Option.some.inj (Except.ok.inj (hrun.symm.trans hw))
    exact hexact'.roundsNowhere
  obtain ⟨w, w', hw, -, hw', -, hquantity, hamount, hprice⟩ :=
    inverse_walk hsound hinverse hpos hdepth hexact hback
  obtain rfl := Option.some.inj (Except.ok.inj (hrun.symm.trans hw))
  have hsum : sum.value = 44 := by decide +kernel
  exact ⟨hsound, hinverse, hpos, hdepth, hexact, hback, _, w', hrun, hsum, hw',
    hquantity.trans hsum, hamount, hprice⟩

end Walk
end QuoteDesk
