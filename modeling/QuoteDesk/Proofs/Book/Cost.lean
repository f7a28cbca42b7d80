import QuoteDesk.Proofs.Book.Depth
/-!
What an amount costs where nothing is rounded. The levels are taken in their order, all but the last one
as a whole, so the cost of an amount is the sum of their prices over it. A walk of which no operation
rounds comes to that sum. None rounds where the numbers have few places and room for them.
-/
namespace QuoteDesk

variable {book : Book} {amount : Decimal} {x y : ℚ}

namespace Book

def cost : Book → ℚ → ℚ
  | [], _ => 0
  | l :: rest, x =>
    l.price.value * min l.quantity.value x + cost rest (x - min l.quantity.value x)

theorem cost_zero (hbook : book.IsStocked) : book.cost 0 = 0 := by
  induction book with
  | nil => rfl
  | cons l rest ih =>
    rw [cost, min_eq_right (hbook l List.mem_cons_self), mul_zero, sub_zero, zero_add, ih hbook.rest]

theorem cost_of_full {l : Level} {rest : Book} (h : l.quantity.value ≤ x) :
    cost (l :: rest) x =
      l.price.value * l.quantity.value + rest.cost (x - l.quantity.value) := by
  rw [cost, min_eq_left h]

theorem cost_of_part {l : Level} {rest : Book} (hbook : rest.IsStocked) (h : x ≤ l.quantity.value) :
    cost (l :: rest) x = l.price.value * x := by
  rw [cost, min_eq_right h, sub_self, cost_zero hbook, add_zero]

theorem sub_min_le_sub_min (q : ℚ) (h : x ≤ y) : x - min q x ≤ y - min q y := by
  rcases le_total q x with hle | hle
  · rw [min_eq_left hle, min_eq_left (hle.trans h)]
    exact sub_le_sub_right h _
  · rw [min_eq_right hle, sub_self]
    exact sub_nonneg.mpr (min_le_right _ _)

theorem cost_mono (hbook : book.IsSound) (h : x ≤ y) : book.cost x ≤ book.cost y := by
  induction book generalizing x y with
  | nil => exact le_refl 0
  | cons l rest ih =>
    exact add_le_add
      (mul_le_mul_of_nonneg_left (min_le_min_left _ h) (hbook.price_pos List.mem_cons_self).le)
      (ih hbook.rest (sub_min_le_sub_min _ h))

theorem cost_nonneg (hbook : book.IsSound) (hx : 0 ≤ x) : 0 ≤ book.cost x :=
  (cost_zero hbook.isStocked).ge.trans (cost_mono hbook hx)

theorem cost_pos (hbook : book.IsSound) (hx : 0 < x) (hdepth : x ≤ book.depth) : 0 < book.cost x := by
  induction book with
  | nil => exact absurd hx (not_lt.mpr hdepth)
  | cons l rest ih =>
    rw [cost]
    rcases (hbook.isStocked l List.mem_cons_self).eq_or_lt with hempty | hstock
    · rw [depth_cons, ← hempty, zero_add] at hdepth
      rw [← hempty, min_eq_left hx.le, mul_zero, sub_zero, zero_add]
      exact ih hbook.rest hdepth
    · have hleft : 0 ≤ x - min l.quantity.value x := sub_nonneg.mpr (min_le_right _ _)
      exact add_pos_of_pos_of_nonneg
        (mul_pos (hbook.price_pos List.mem_cons_self) (lt_min hstock hx))
        (cost_nonneg hbook.rest hleft)

end Book

namespace Walk

namespace Stage

variable {p q : Stage} {l : Level} {w : Walk}

/-- From one stage to the next no operation rounds. -/
structure StepsExactly (p : Stage) (l : Level) (q : Stage) : Prop where
  next : p.next l = .ok (some q)
  product : ∃ product, l.price.mul? (p.take l) = some product ∧
    product.value = l.price.value * (p.take l).value
  notional : q.notional.value = p.notional.value + l.price.value * (p.take l).value
  quantity : q.quantity.value = p.quantity.value + (p.take l).value
  unfilled : q.unfilled.value = p.unfilled.value - (p.take l).value

def IsExact (p : Stage) : Book → Prop
  | [] => True
  | l :: rest => p.unfilled.isPositive = true → ∃ q, p.StepsExactly l q ∧ q.IsExact rest

/-- Where nothing is rounded, a walk covers what the levels offer and consumes what that costs. -/
theorem IsExact.resume_eq (h : p.IsExact book) (hbook : book.IsStocked) (hp : 0 ≤ p.unfilled.value) :
    ∃ w, p.resume book = .ok (some w) ∧
      w.quantity.value = p.quantity.value + min p.unfilled.value book.depth ∧
      w.notional.value = p.notional.value + book.cost p.unfilled.value ∧
      (w.complete = true ↔ p.unfilled.value ≤ book.depth) := by
  induction book generalizing p with
  | nil =>
    have hcovered : p.walk.complete = true ↔ p.unfilled.value ≤ Book.depth [] := by
      rw [walk, Bool.not_eq_true', Bool.eq_false_iff, ne_eq, Decimal.isPositive_iff, not_lt]
      rfl
    refine ⟨p.walk, rfl, ?_, (add_zero _).symm, hcovered⟩
    exact (min_eq_right hp).symm ▸ (add_zero _).symm
  | cons l rest ih =>
    rw [resume_cons]
    by_cases hpos : p.unfilled.isPositive = true
    · obtain ⟨q, hstep, hrest⟩ := h hpos
      have hunfilled := hstep.unfilled
      have hleft : 0 ≤ q.unfilled.value := by
        rw [hunfilled]
        exact sub_nonneg.mpr (take_le p l)
      obtain ⟨w, hrun, hquantity, hnotional, hcomplete⟩ := ih hrest hbook.rest hleft
      have hdepth := hbook.rest.depth_nonneg
      have hreached : min p.unfilled.value (Book.depth (l :: rest)) =
          (p.take l).value + min (p.unfilled.value - (p.take l).value) (Book.depth rest) ∧
          (p.unfilled.value ≤ Book.depth (l :: rest) ↔
            p.unfilled.value - (p.take l).value ≤ Book.depth rest) := by
        rw [Book.depth_cons, value_take]
        rcases le_total l.quantity.value p.unfilled.value with hle | hle
        · rw [min_eq_left hle, ← min_add_add_left, add_sub_cancel, sub_le_iff_le_add']
          exact ⟨rfl, Iff.rfl⟩
        · have hcovered : p.unfilled.value ≤ l.quantity.value + Book.depth rest := by linarith
          rw [min_eq_right hle, sub_self, min_eq_left hdepth, add_zero, min_eq_left hcovered]
          exact ⟨rfl, fun _ => hdepth, fun _ => hcovered⟩
      refine ⟨w, by rw [if_pos hpos, hstep.next]; exact hrun, ?_, ?_, ?_⟩
      · rw [hquantity, hstep.quantity, hunfilled, hreached.1, add_assoc]
      · rw [hnotional, hstep.notional, hunfilled, Book.cost, value_take, add_assoc]
      · rw [hcomplete, hunfilled, hreached.2]
    · have hzero : p.unfilled.value = 0 :=
        le_antisymm (not_lt.mp fun h => hpos (Decimal.isPositive_iff.mpr h)) hp
      refine ⟨_, if_neg hpos, ?_, ?_, ?_⟩
      · rw [hzero, min_eq_left hbook.depth_nonneg, add_zero]
      · rw [hzero, Book.cost_zero hbook, add_zero]
      · rw [hzero]
        exact ⟨fun _ => hbook.depth_nonneg, fun _ => rfl⟩

/-- The quantities have `s` places and the prices `t`, here and in the rest of the book, and the whole
amount and its cost have room for these. -/
structure HasRoom (p : Stage) (book : Book) (s t : Nat) : Prop where
  scales : s + t ≤ Decimal.maxScale
  sound : book.IsSound
  levels : ∀ l ∈ book, HasPlaces l.quantity.value s ∧ HasPlaces l.price.value t
  places : HasPlaces p.unfilled.value s ∧ HasPlaces p.quantity.value s ∧
    HasPlaces p.notional.value (s + t)
  nonneg : 0 ≤ p.unfilled.value ∧ 0 ≤ p.quantity.value ∧ 0 ≤ p.notional.value
  amount_lt : (p.quantity.value + p.unfilled.value) * pow10 s < Decimal.bound
  cost_lt : (p.notional.value + book.cost p.unfilled.value) * pow10 (s + t) < Decimal.bound

theorem hasRoom_start {s t : Nat} (hst : s + t ≤ Decimal.maxScale) (hbook : book.IsSound)
    (hlevels : ∀ l ∈ book, HasPlaces l.quantity.value s ∧ HasPlaces l.price.value t)
    (hpos : 0 ≤ amount.value) (hplaces : HasPlaces amount.value s)
    (hroom : amount.value * pow10 s < Decimal.bound)
    (hcost : book.cost amount.value * pow10 (s + t) < Decimal.bound) :
    HasRoom (start amount) book s t := by
  have hzero : (start amount).quantity.value = 0 := Decimal.value_zero
  have hzero' : (start amount).notional.value = 0 := Decimal.value_zero
  refine ⟨hst, hbook, hlevels, ⟨hplaces, ?_, ?_⟩, ⟨hpos, hzero.ge, hzero'.ge⟩, ?_, ?_⟩
  · exact hzero ▸ .zero s
  · exact hzero' ▸ .zero (s + t)
  · rwa [hzero, zero_add]
  · rwa [hzero', zero_add]

theorem HasRoom.step {rest : Book} {s t : Nat} (h : p.HasRoom (l :: rest) s t) :
    ∃ q, p.StepsExactly l q ∧ q.HasRoom rest s t := by
  obtain ⟨hstock, hprice⟩ := h.levels l List.mem_cons_self
  obtain ⟨hunfilled, hquantity, hnotional⟩ := h.places
  obtain ⟨hp, hq, hn⟩ := h.nonneg
  have hs : s ≤ Decimal.maxScale := (Nat.le_add_right s t).trans h.scales
  have hpos := (h.sound.price_pos (l := l) List.mem_cons_self).le
  have htake := take_nonneg (h.sound.isStocked l List.mem_cons_self) hp
  have hle := take_le p l
  have hplaces := hasPlaces_take hunfilled hstock
  have hleft : 0 ≤ p.unfilled.value - (p.take l).value := sub_nonneg.mpr hle
  have hcost : Book.cost (l :: rest) p.unfilled.value =
      l.price.value * (p.take l).value + rest.cost (p.unfilled.value - (p.take l).value) := by
    rw [Book.cost, value_take]
  have hlater := Book.cost_nonneg h.sound.rest hleft
  have hworth := mul_nonneg hpos htake
  have hproduct : HasPlaces (l.price.value * (p.take l).value) (s + t) := by
    rw [mul_comm]
    exact hplaces.mul hprice
  obtain ⟨product, hmul, hmul'⟩ := Decimal.exists_mul_of_mem
    (Decimal.mem_range_of_le hproduct h.scales hworth (by linarith) h.cost_lt)
  have hsum := hnotional.add hproduct
  obtain ⟨notional, hadd, hadd'⟩ := Decimal.exists_add_of_mem (a := p.notional) (b := product)
    (hmul'.symm ▸ Decimal.mem_range_of_le hsum h.scales (add_nonneg hn hworth) (by linarith) h.cost_lt)
  have htotal := hquantity.add hplaces
  obtain ⟨quantity, hfill, hfill'⟩ := Decimal.exists_add_of_mem
    (Decimal.mem_range_of_le htotal hs (add_nonneg hq htake) (by linarith) h.amount_lt)
  have hrest := hunfilled.sub hplaces
  obtain ⟨unfilled, hsub, hsub'⟩ := Decimal.exists_sub_of_mem
    (Decimal.mem_range_of_le hrest hs hleft (by linarith) h.amount_lt)
  rw [hmul'] at hadd'
  have hstep : p.StepsExactly l ⟨unfilled, quantity, notional⟩ :=
    ⟨next_eq_some_iff.mpr ⟨product, hmul, hadd, hfill, hsub⟩, ⟨product, hmul, hmul'⟩, hadd', hfill',
      hsub'⟩
  refine ⟨_, hstep, h.scales, h.sound.rest, fun m hm => h.levels m (List.mem_cons_of_mem _ hm),
    ⟨?_, ?_, ?_⟩, ⟨?_, ?_, ?_⟩, ?_, ?_⟩
  · exact hsub' ▸ hrest
  · exact hfill' ▸ htotal
  · exact hadd' ▸ hsum
  · exact hsub' ▸ hleft
  · exact hfill' ▸ add_nonneg hq htake
  · exact hadd' ▸ add_nonneg hn hworth
  · rw [hfill', hsub', add_add_sub_cancel]
    exact h.amount_lt
  · rw [hadd', hsub', add_assoc, ← hcost]
    exact h.cost_lt

theorem HasRoom.isExact {s t : Nat} (h : p.HasRoom book s t) : p.IsExact book := by
  induction book generalizing p with
  | nil => trivial
  | cons l rest ih =>
    intro _
    obtain ⟨q, hstep, hq⟩ := h.step
    exact ⟨q, hstep, ih hq⟩

theorem isExact_of_scales {s t : Nat} (hst : s + t ≤ Decimal.maxScale) (hbook : book.IsSound)
    (hlevels : ∀ l ∈ book, l.quantity.scale ≤ s ∧ l.price.scale ≤ t) (hpos : 0 ≤ amount.value)
    (hscale : amount.scale ≤ s) (hroom : amount.value * pow10 s < Decimal.bound)
    (hcost : book.cost amount.value * pow10 (s + t) < Decimal.bound) :
    (start amount).IsExact book := by
  have hplaces : ∀ l ∈ book, HasPlaces l.quantity.value s ∧ HasPlaces l.price.value t :=
    fun l hl => ⟨Decimal.hasPlaces_value (hlevels l hl).1, Decimal.hasPlaces_value (hlevels l hl).2⟩
  exact (hasRoom_start hst hbook hplaces hpos (Decimal.hasPlaces_value hscale) hroom hcost).isExact

end Stage

variable {w : Walk}

theorem totals_of_exact (h : (Stage.start amount).IsExact book) (hbook : book.IsStocked)
    (hpos : 0 ≤ amount.value) (hrun : run book amount = .ok (some w)) :
    w.quantity.value = min amount.value book.depth ∧ w.notional.value = book.cost amount.value ∧
      (w.complete = true ↔ amount.value ≤ book.depth) := by
  obtain ⟨w', hrun', hquantity, hnotional, hcomplete⟩ := h.resume_eq hbook hpos
  obtain rfl := Option.some.inj (Except.ok.inj (hrun.symm.trans hrun'))
  have hzero : (0 : ℚ) = (Stage.start amount).quantity.value := Decimal.value_zero.symm
  have hzero' : (0 : ℚ) = (Stage.start amount).notional.value := Decimal.value_zero.symm
  rw [← hzero, zero_add] at hquantity
  rw [← hzero', zero_add] at hnotional
  exact ⟨hquantity, hnotional, hcomplete⟩

end Walk

end QuoteDesk
