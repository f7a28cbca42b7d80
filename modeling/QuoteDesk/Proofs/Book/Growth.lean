import QuoteDesk.Proofs.Book.Cost
import QuoteDesk.Proofs.Book.Truncation
/-!
Whether more is quoted for more. On bids an amount yields what it costs, which grows with it. On asks it
yields its square over its cost, so a level that asks for more than twice the average before it makes
larger amounts yield less. Rounding keeps the order of what it rounds once, and of what is farther
apart than it moves.
-/
namespace QuoteDesk

variable {book : Book} {a b out out' : Decimal} {w w' : Walk} {side : BookSide} {decimals : Nat}

namespace Book

variable {q n p x y : ℚ}

/-- After a quantity and its notional, no level that an amount takes from asks for more than twice the
average so far. -/
def gentleFrom : ℚ → ℚ → ℚ → Book → Prop
  | _, _, _, [] => True
  | quantity, notional, amount, l :: rest =>
    let take := min l.quantity.value amount
    (0 < take → l.price.value * quantity ≤ 2 * notional) ∧
      gentleFrom (quantity + take) (notional + l.price.value * take) (amount - take) rest

def decidableGentleFrom : (q n x : ℚ) → (book : Book) → Decidable (gentleFrom q n x book)
  | _, _, _, [] => isTrue trivial
  | q, n, x, l :: rest =>
    have := decidableGentleFrom (q + min l.quantity.value x)
      (n + l.price.value * min l.quantity.value x) (x - min l.quantity.value x) rest
    inferInstanceAs (Decidable ((_ → _) ∧ _))

def IsGentle (book : Book) (amount : ℚ) : Prop := gentleFrom 0 0 amount book

instance (book : Book) (amount : ℚ) : Decidable (book.IsGentle amount) :=
  decidableGentleFrom 0 0 amount book

/-- At one price, the square over the cost grows while that price is at most twice the average before. -/
theorem sq_div_mono (hq : 0 ≤ q) (hn : 0 ≤ n) (hp : 0 < p) (hx : 0 ≤ x) (hle : x ≤ y)
    (hgentle : x < y → p * q ≤ 2 * n) : (q + x) ^ 2 / (n + p * x) ≤ (q + y) ^ 2 / (n + p * y) := by
  rcases hle.eq_or_lt with rfl | hlt
  · exact le_refl _
  have hy := hx.trans_lt hlt
  have hcost := add_pos_of_nonneg_of_pos hn (mul_pos hp hy)
  rcases (add_nonneg hn (mul_nonneg hp.le hx)).eq_or_lt with hzero | hpos
  · rw [← hzero, div_zero]
    exact div_nonneg (sq_nonneg _) hcost.le
  · have hspare : 0 ≤ n * (x + y) + q * (2 * n - p * q) + p * x * y :=
      add_nonneg (add_nonneg (mul_nonneg hn (add_nonneg hx hy.le))
        (mul_nonneg hq (sub_nonneg.mpr (hgentle hlt)))) (mul_nonneg (mul_nonneg hp.le hx) hy.le)
    have hgap : (q + y) ^ 2 * (n + p * x) - (q + x) ^ 2 * (n + p * y) =
        (y - x) * (n * (x + y) + q * (2 * n - p * q) + p * x * y) := by ring
    rw [div_le_div_iff₀ hpos hcost, ← sub_nonneg, hgap]
    exact mul_nonneg (sub_nonneg.mpr hle) hspare

theorem gentleFrom_zero (hbook : book.IsStocked) : gentleFrom q n 0 book := by
  induction book generalizing q n with
  | nil => trivial
  | cons l rest ih =>
    have htake : min l.quantity.value 0 = 0 := min_eq_right (hbook l List.mem_cons_self)
    refine ⟨fun h => absurd (htake ▸ h) (lt_irrefl 0), ?_⟩
    rw [htake, sub_self]
    exact ih hbook.rest

theorem gentleFrom_anti (hbook : book.IsStocked) (hle : x ≤ y) (h : gentleFrom q n y book) :
    gentleFrom q n x book := by
  induction book generalizing q n x y with
  | nil => trivial
  | cons l rest ih =>
    obtain ⟨hhere, hlater⟩ := h
    refine ⟨fun hpos => hhere (hpos.trans_le (min_le_min_left _ hle)), ?_⟩
    rcases le_total l.quantity.value x with hfull | hpart
    · rw [min_eq_left (hfull.trans hle)] at hlater
      rw [min_eq_left hfull]
      exact ih hbook.rest (sub_le_sub_right hle _) hlater
    · rw [min_eq_right hpart, sub_self]
      exact gentleFrom_zero hbook.rest

/-- The square over the cost grows over levels that are gentle. -/
theorem sq_div_cost_mono (hbook : book.IsSound) (hq : 0 ≤ q) (hn : 0 ≤ n) (hx : 0 ≤ x) (hle : x ≤ y)
    (hgentle : gentleFrom q n y book) :
    (q + x) ^ 2 / (n + book.cost x) ≤ (q + y) ^ 2 / (n + book.cost y) := by
  induction book generalizing q n x y with
  | nil =>
    have hsum : 0 ≤ n + cost [] x := add_nonneg hn (le_refl 0)
    exact div_le_div_of_nonneg_right
      (pow_le_pow_left₀ (add_nonneg hq hx) (add_le_add_right hle q) 2) hsum
  | cons l rest ih =>
    obtain ⟨hhere, hlater⟩ := hgentle
    have hprice := hbook.price_pos (l := l) List.mem_cons_self
    have hstock := hbook.isStocked l List.mem_cons_self
    have htake : 0 ≤ min l.quantity.value y := le_min hstock (hx.trans hle)
    have hq' := add_nonneg hq htake
    have hn' := add_nonneg hn (mul_nonneg hprice.le htake)
    rcases le_total l.quantity.value x with hfull | hpart
    · have hfull' := hfull.trans hle
      rw [min_eq_left hfull'] at hlater hq' hn'
      have hothers := ih hbook.rest hq' hn' (sub_nonneg.mpr hfull) (sub_le_sub_right hle _) hlater
      rw [cost_of_full hfull, cost_of_full hfull', ← add_assoc, ← add_assoc]
      rwa [add_add_sub_cancel, add_add_sub_cancel] at hothers
    · -- the smaller amount ends in this level: first to the end of it, then over the others
      have hlevel := sq_div_mono hq hn hprice hx (le_min hpart hle) fun hlt => hhere (hx.trans_lt hlt)
      have hothers := ih hbook.rest hq' hn' (le_refl 0) (sub_nonneg.mpr (min_le_right _ _)) hlater
      rw [add_zero, cost_zero hbook.rest.isStocked, add_zero, add_add_sub_cancel,
        add_assoc n] at hothers
      rw [cost_of_part hbook.rest.isStocked hpart]
      exact hlevel.trans hothers

/-- A price of more than twice the average before it makes the square over the cost fall at once. -/
theorem le_two_mul_of_sq_div_le {t : ℚ} (hq : 0 < q) (hn : 0 < n) (hp : 0 < p) (ht : 0 < t)
    (h : ∀ y, 0 < y → y ≤ t → q ^ 2 / n ≤ (q + y) ^ 2 / (n + p * y)) : p * q ≤ 2 * n := by
  by_contra hsteep
  rw [not_le, ← sub_pos] at hsteep
  have hexcess := mul_pos hq hsteep
  let y := min t (q * (p * q - 2 * n) / (2 * n))
  have hy : 0 < y := lt_min ht (div_pos hexcess (mul_pos two_pos hn))
  have hsmall : y * (2 * n) ≤ q * (p * q - 2 * n) :=
    (le_div_iff₀ (mul_pos two_pos hn)).mp (min_le_right _ _)
  have hgrows := h y hy (min_le_left _ _)
  rw [div_le_div_iff₀ hn (add_pos hn (mul_pos hp hy)), ← sub_nonneg] at hgrows
  have hgap : (q + y) ^ 2 * n - q ^ 2 * (n + p * y) = y * (y * n - q * (p * q - 2 * n)) := by ring
  rw [hgap] at hgrows
  have hspare := nonneg_of_mul_nonneg_right hgrows hy
  linarith

theorem gentleFrom_of_mono (hbook : book.IsSound) (hq : 0 ≤ q) (hn : 0 ≤ n) (hqn : 0 < q → 0 < n)
    (h : ∀ x z, 0 ≤ x → x ≤ z → z ≤ y →
      (q + x) ^ 2 / (n + book.cost x) ≤ (q + z) ^ 2 / (n + book.cost z)) :
    gentleFrom q n y book := by
  induction book generalizing q n y with
  | nil => trivial
  | cons l rest ih =>
    have hprice := hbook.price_pos (l := l) List.mem_cons_self
    have hstock := hbook.isStocked l List.mem_cons_self
    have hrest := hbook.rest.isStocked
    constructor
    · intro htake
      rcases hq.eq_or_lt with rfl | hpos
      · rw [mul_zero]
        exact mul_nonneg two_pos.le hn
      refine le_two_mul_of_sq_div_le hpos (hqn hpos) hprice htake fun z hz hle => ?_
      have hgrows := h 0 z (le_refl 0) hz.le (hle.trans (min_le_right _ _))
      rwa [add_zero, cost_zero hbook.isStocked, add_zero,
        cost_of_part hrest (hle.trans (min_le_left _ _))] at hgrows
    · rcases le_total l.quantity.value y with hfull | hpart
      · rw [min_eq_left hfull]
        have hworth := mul_nonneg hprice.le hstock
        refine ih hbook.rest (add_nonneg hq hstock) (add_nonneg hn hworth) ?_ ?_
        · intro hpos
          rcases hstock.eq_or_lt with hempty | hsome
          · rw [← hempty, add_zero] at hpos
            exact add_pos_of_pos_of_nonneg (hqn hpos) hworth
          · exact add_pos_of_nonneg_of_pos hn (mul_pos hprice hsome)
        · intro x z hx hle hz
          have hgrows := h (l.quantity.value + x) (l.quantity.value + z) (add_nonneg hstock hx)
            (add_le_add_right hle _) (by linarith)
          have hfull' : ∀ {v : ℚ}, 0 ≤ v → l.quantity.value ≤ l.quantity.value + v :=
            fun hv => le_add_of_nonneg_right hv
          rwa [cost_of_full (hfull' hx), cost_of_full (hfull' (hx.trans hle)), add_sub_cancel_left,
            add_sub_cancel_left, ← add_assoc, ← add_assoc, ← add_assoc, ← add_assoc] at hgrows
      · rw [min_eq_right hpart, sub_self]
        exact gentleFrom_zero hrest

def exactYield (book : Book) : BookSide → ℚ → ℚ
  | .bids, x => book.cost x
  | .asks, x => x ^ 2 / book.cost x

theorem exactYield_mono (hbook : book.IsSound) (hx : 0 ≤ x) (hle : x ≤ y)
    (hgentle : side = .asks → book.IsGentle y) : book.exactYield side x ≤ book.exactYield side y := by
  cases side with
  | bids => exact cost_mono hbook hle
  | asks =>
    have hgrows := sq_div_cost_mono hbook (le_refl 0) (le_refl 0) hx hle (hgentle rfl)
    rwa [zero_add, zero_add, zero_add, zero_add] at hgrows

/-- Up to an amount asks yield more for more exactly if the book is gentle so far. -/
theorem isGentle_iff (hbook : book.IsSound) : book.IsGentle y ↔
    ∀ x z, 0 ≤ x → x ≤ z → z ≤ y → book.exactYield .asks x ≤ book.exactYield .asks z := by
  constructor
  · intro h x z hx hle hz
    exact exactYield_mono hbook hx hle fun _ => gentleFrom_anti hbook.isStocked hz h
  · intro h
    refine gentleFrom_of_mono hbook (le_refl 0) (le_refl 0) id fun x z hx hle hz => ?_
    rw [zero_add, zero_add, zero_add, zero_add]
    exact h x z hx hle hz

/-- No operation of a walk rounds, and it comes to an output. -/
structure Offers (book : Book) (amount : Decimal) (side : BookSide) (w : Walk) (out : Decimal) :
    Prop where
  exact : (Walk.Stage.start amount).IsExact book
  run : Walk.run book amount = .ok (some w)
  yield : w.yield? amount side = some out

end Book

namespace Walk

def RoundsOnce (w : Walk) (amount : Decimal) (side : BookSide) (out : Decimal) : Prop :=
  ∃ product, amount.mul? (w.ratio side).1 = some product ∧
    product.value = amount.value * (w.ratio side).1.value ∧
    product.div? (w.ratio side).2 = some out

end Walk

namespace Book

theorem Offers.totals (h : book.Offers a side w out) (hbook : book.IsSound) (hpos : 0 < a.value)
    (hdepth : a.value ≤ book.depth) : w.complete = true ∧ 0 < (w.ratio side).2.value ∧
      w.exactYield a side = book.exactYield side a.value := by
  obtain ⟨hquantity, hnotional, hcomplete⟩ :=
    Walk.totals_of_exact h.exact hbook.isStocked hpos.le h.run
  rw [min_eq_left hdepth] at hquantity
  have hcost := cost_pos hbook hpos hdepth
  refine ⟨hcomplete.mpr hdepth, ?_, ?_⟩
  · cases side with
    | bids => exact hquantity.symm ▸ hpos
    | asks => exact hnotional.symm ▸ hcost
  · cases side with
    | bids =>
      show a.value * w.notional.value / w.quantity.value = book.cost a.value
      rw [hquantity, hnotional, mul_div_cancel_left₀ _ hpos.ne']
    | asks =>
      show a.value * w.quantity.value / w.notional.value = a.value ^ 2 / book.cost a.value
      rw [hquantity, hnotional, sq]

theorem Offers.nonneg (h : book.Offers a side w out) (hbook : book.IsSound) (hpos : 0 < a.value)
    (hdepth : a.value ≤ book.depth) : 0 ≤ out.value := by
  obtain ⟨hcomplete, hden, -⟩ := h.totals hbook hpos hdepth
  obtain ⟨slack, hyields⟩ := Walk.exists_yields hcomplete h.yield
  exact hyields.nonneg hpos (Walk.ratio_nonneg hbook hpos h.run side) hden

theorem Offers.output_eq (h : book.Offers a side w out) (hbook : book.IsSound) (hpos : 0 < a.value)
    (hdepth : a.value ≤ book.depth) (decimals : Nat) :
    book.output a side decimals = .ok ((out.toUnits? decimals).getD .zero) := by
  obtain ⟨hcomplete, -⟩ := h.totals hbook hpos hdepth
  rw [output, outputFor_of_complete hpos h.run hcomplete, h.yield]
  rfl

/-- No less is quoted for the larger of two amounts that a book covers, if nothing is rounded on the way
to the two quotients, or the outputs are farther apart than rounding moves them. The larger output has
to fit, and on asks the larger amount must not reach a level that is too steep. What is quoted is then
the two outputs, cut off. -/
theorem output_le_output (hbook : book.IsSound) (hpos : 0 < a.value) (hle : a.value ≤ b.value)
    (hdepth : b.value ≤ book.depth) (ha : book.Offers a side w out) (hb : book.Offers b side w' out')
    (hgentle : side = .asks → book.IsGentle b.value)
    (hfits : out'.value * pow10 decimals < Units.size)
    (hrounds : w.RoundsOnce a side out ∧ w'.RoundsOnce b side out' ∨
      ∃ slack slack', w.Yields a side out slack ∧ w'.Yields b side out' slack' ∧
        w.exactYield a side + slack + slack' ≤ w'.exactYield b side) :
    ∃ x y, book.output a side decimals = .ok x ∧ book.output b side decimals = .ok y ∧
      x.val ≤ y.val ∧ (decimals ≤ Decimal.maxScale →
        x.val = ⌊out.value * pow10 decimals⌋₊ ∧ y.val = ⌊out'.value * pow10 decimals⌋₊) := by
  have hpos' := hpos.trans_le hle
  have hdepth' := hle.trans hdepth
  obtain ⟨-, hden, hyield⟩ := ha.totals hbook hpos hdepth'
  obtain ⟨-, hden', hyield'⟩ := hb.totals hbook hpos' hdepth
  have hgrows := exactYield_mono hbook hpos.le hle hgentle
  rw [← hyield, ← hyield'] at hgrows
  have hout : out.value ≤ out'.value := by
    rcases hrounds with ⟨hone, hone'⟩ | ⟨slack, slack', hyields, hyields', happart⟩
    · obtain ⟨product, hproduct, hexact, hquotient⟩ := hone
      obtain ⟨product', -, hexact', hquotient'⟩ := hone'
      have hnonneg := Decimal.nonneg_of_mul hpos.le (Walk.ratio_nonneg hbook hpos ha.run side) hproduct
      refine Decimal.div_mono hnonneg hden hden' ?_ hquotient hquotient'
      rw [hexact, hexact']
      exact hgrows
    · have hmoved := (le_abs_self _).trans (hyields.abs_sub_le hpos hden)
      have hmoved' := (neg_abs_le _).trans' (neg_le_neg (hyields'.abs_sub_le hpos' hden'))
      linarith
  have hnonneg := ha.nonneg hbook hpos hdepth'
  have hfits' : out.value * pow10 decimals < Units.size :=
    (mul_le_mul_of_nonneg_right hout (Nat.cast_nonneg _)).trans_lt hfits
  exact ⟨_, _, ha.output_eq hbook hpos hdepth' decimals, hb.output_eq hbook hpos' hdepth decimals,
    Decimal.val_units_mono hnonneg hout hfits, fun hs =>
      ⟨Decimal.val_units_of_fits hnonneg hs hfits',
        Decimal.val_units_of_fits (hnonneg.trans hout) hs hfits⟩⟩

/-- Five at ten and five at eleven: the second price is not too steep after the first. -/
theorem output_le_output_two_levels :
    let five : Decimal := ⟨5, 0, by decide, by decide⟩
    let seven : Decimal := ⟨7, 0, by decide, by decide⟩
    let book : Book := [⟨⟨10, 0, by decide, by decide⟩, five⟩, ⟨⟨11, 0, by decide, by decide⟩, five⟩]
    let w : Walk := ⟨five, ⟨50, 0, by decide, by decide⟩, true⟩
    let w' : Walk := ⟨seven, ⟨72, 0, by decide, by decide⟩, true⟩
    let out : Decimal := ⟨5000000000000000000000000000, 28, by decide, by decide⟩
    let out' : Decimal := ⟨6805555555555555555555555556, 28, by decide, by decide⟩
    book.IsSound ∧ 0 < five.value ∧ five.value ≤ seven.value ∧ seven.value ≤ book.depth ∧
      book.Offers five .asks w out ∧ book.Offers seven .asks w' out' ∧ book.IsGentle seven.value ∧
      out'.value * pow10 6 < Units.size ∧
      (w.RoundsOnce five .asks out ∧ w'.RoundsOnce seven .asks out') ∧
      ∃ x y, book.output five .asks 6 = .ok x ∧ book.output seven .asks 6 = .ok y ∧
        x.val ≤ y.val ∧ x.val = ⌊out.value * pow10 6⌋₊ ∧ y.val = ⌊out'.value * pow10 6⌋₊ := by
  intro five seven book w w' out out'
  have hsound : book.IsSound :=
    List.forall_mem_cons.mpr ⟨by decide, List.forall_mem_singleton.mpr (by decide)⟩
  have hpos : 0 < five.value := Decimal.value_pos_iff.mpr (by decide)
  have hle : five.value ≤ seven.value := Decimal.le_iff.mp (by decide)
  have hdepth : seven.value ≤ book.depth := by decide +kernel
  have hlevels : ∀ l ∈ book, HasPlaces l.quantity.value 0 ∧ HasPlaces l.price.value 0 := by
    have hscales : ∀ l ∈ book, l.quantity.scale ≤ 0 ∧ l.price.scale ≤ 0 := by decide
    exact fun l hl =>
      ⟨Decimal.hasPlaces_value (hscales l hl).1, Decimal.hasPlaces_value (hscales l hl).2⟩
  have hexact : (Walk.Stage.start five).IsExact book :=
    (Walk.Stage.hasRoom_start (by decide) hsound hlevels hpos.le
      (Decimal.hasPlaces_value (le_refl 0)) (by decide +kernel) (by decide +kernel)).isExact
  have hexact' : (Walk.Stage.start seven).IsExact book :=
    (Walk.Stage.hasRoom_start (by decide) hsound hlevels (hpos.le.trans hle)
      (Decimal.hasPlaces_value (le_refl 0)) (by decide +kernel) (by decide +kernel)).isExact
  have ha : book.Offers five .asks w out := ⟨hexact, by decide +kernel, by decide +kernel⟩
  have hb : book.Offers seven .asks w' out' := ⟨hexact', by decide +kernel, by decide +kernel⟩
  have hgentle : book.IsGentle seven.value := by decide +kernel
  have hfits : out'.value * pow10 6 < Units.size := by decide +kernel
  have hone : w.RoundsOnce five .asks out :=
    ⟨⟨25, 0, by decide, by decide⟩, by decide +kernel, by decide +kernel, by decide +kernel⟩
  have hone' : w'.RoundsOnce seven .asks out' :=
    ⟨⟨49, 0, by decide, by decide⟩, by decide +kernel, by decide +kernel, by decide +kernel⟩
  obtain ⟨x, y, hx, hy, hgrows, hcut⟩ :=
    output_le_output hsound hpos hle hdepth ha hb (fun _ => hgentle) hfits (.inl ⟨hone, hone'⟩)
  exact ⟨hsound, hpos, hle, hdepth, ha, hb, hgentle, hfits, ⟨hone, hone'⟩, x, y, hx, hy, hgrows,
    hcut (by decide)⟩

/-- The levels with the best price for whoever trades against them come first. -/
def IsBestFirst (book : Book) : BookSide → Prop
  | .bids => book.Pairwise fun l m => m.price.value ≤ l.price.value
  | .asks => book.Pairwise fun l m => l.price.value ≤ m.price.value

/-- Offering more never yields less while the book covers it. -/
def Grows (side : BookSide) : Prop :=
  ∀ (book : Book) (a b : Decimal) (decimals : Nat),
    (∀ l ∈ book, 0 < l.price.value ∧ 0 < l.quantity.value) → book.IsBestFirst side →
    0 < a.value → a.value ≤ b.value → b.value ≤ book.depth →
    ∃ x y, book.output a side decimals = .ok x ∧ book.output b side decimals = .ok y ∧ x.val ≤ y.val

/-- Two of asks at one and at ten cost eleven, and four elevenths are less than the one that the first of
them yields. On bids it takes an amount so small that its product with the notional is rounded to a
single digit. -/
theorem not_grows : ¬ Grows .asks ∧ ¬ Grows .bids := by
  let one : Decimal := ⟨1, 0, by decide, by decide⟩
  let two : Decimal := ⟨2, 0, by decide, by decide⟩
  let ten : Decimal := ⟨10, 0, by decide, by decide⟩
  have hone : 0 < one.value := Decimal.value_pos_iff.mpr (by decide)
  have hten : 0 < ten.value := Decimal.value_pos_iff.mpr (by decide)
  constructor
  · intro hgrows
    let asks : Book := [⟨one, one⟩, ⟨ten, ten⟩]
    have hfilled : ∀ l ∈ asks, 0 < l.price.value ∧ 0 < l.quantity.value :=
      List.forall_mem_cons.mpr ⟨⟨hone, hone⟩, List.forall_mem_singleton.mpr ⟨hten, hten⟩⟩
    have hbest : asks.IsBestFirst .asks := List.pairwise_pair.mpr (Decimal.le_iff.mp (by decide))
    have hquoted : asks.output one .asks 18 = .ok ⟨1000000000000000000, by decide⟩ := by
      decide +kernel
    have hquoted' : asks.output two .asks 18 = .ok ⟨363636363636363636, by decide⟩ := by
      decide +kernel
    obtain ⟨x, y, hx, hy, hle⟩ := hgrows asks one two 18 hfilled hbest hone
      (Decimal.le_iff.mp (by decide)) (by decide +kernel)
    obtain rfl := Except.ok.inj (hquoted.symm.trans hx)
    obtain rfl := Except.ok.inj (hquoted'.symm.trans hy)
    exact absurd hle (by decide)
  · intro hgrows
    let less : Decimal := ⟨159, 16, by decide, by decide⟩
    let more : Decimal := ⟨18, 15, by decide, by decide⟩
    have hfilled : ∀ l ∈ [Level.mk one one], 0 < l.price.value ∧ 0 < l.quantity.value :=
      List.forall_mem_singleton.mpr ⟨hone, hone⟩
    have hquoted : Book.output [⟨one, one⟩] less .bids 18 = .ok ⟨18867, by decide⟩ := by decide +kernel
    have hquoted' : Book.output [⟨one, one⟩] more .bids 18 = .ok ⟨16666, by decide⟩ := by
      decide +kernel
    obtain ⟨x, y, hx, hy, hle⟩ := hgrows [⟨one, one⟩] less more 18 hfilled (List.pairwise_singleton _ _)
      (Decimal.value_pos_iff.mpr (by decide)) (Decimal.le_iff.mp (by decide)) (by decide +kernel)
    obtain rfl := Except.ok.inj (hquoted.symm.trans hx)
    obtain rfl := Except.ok.inj (hquoted'.symm.trans hy)
    exact absurd hle (by decide)

end Book
end QuoteDesk
