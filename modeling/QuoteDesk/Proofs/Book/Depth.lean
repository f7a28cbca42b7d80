import QuoteDesk.Proofs.Book.Walk
import QuoteDesk.Proofs.Decimal.Units
/-!
Amounts beyond the depth of a book. What is still to cover is rounded at every level, so a walk takes
an amount as covered exactly if what rounding has taken off makes up for what the levels lack. Nothing
is taken off where all numbers have places for which the amount has room, and at most half of such a
place at each level otherwise.
-/
namespace QuoteDesk

def Book.depth (b : Book) : ℚ := (b.map (·.quantity.value)).sum

variable {book : Book} {amount : Decimal} {s : Nat}

theorem Book.depth_cons (l : Level) (rest : Book) :
    depth (l :: rest) = l.quantity.value + depth rest := List.sum_cons

theorem Book.IsStocked.rest {l : Level} {rest : Book} (h : Book.IsStocked (l :: rest)) :
    Book.IsStocked rest := fun m hm => h m (List.mem_cons_of_mem _ hm)

theorem Book.IsSound.rest {l : Level} {rest : Book} (h : Book.IsSound (l :: rest)) :
    Book.IsSound rest := fun m hm => h m (List.mem_cons_of_mem _ hm)

theorem Book.IsSound.price_pos (h : book.IsSound) {l : Level} (hl : l ∈ book) : 0 < l.price.value :=
  Decimal.value_pos_iff.mpr (Level.isSound_iff.mp (h l hl)).1

theorem Book.IsStocked.depth_nonneg (h : book.IsStocked) : 0 ≤ book.depth := by
  induction book with
  | nil => exact le_refl 0
  | cons l rest ih =>
    rw [depth_cons]
    exact add_nonneg (h l List.mem_cons_self) (ih h.rest)

namespace Walk

namespace Stage

variable {p q : Stage} {l : Level} {rest left : Book} {w : Walk}

/-- What rounding takes off what is still to cover, from here to the end of a walk. -/
def roundedOff (p : Stage) : Book → ℚ
  | [] => 0
  | l :: rest =>
    if p.unfilled.isPositive then
      match p.next l with
      | .ok (some q) => p.unfilled.value - (p.take l).value - q.unfilled.value + q.roundedOff rest
      | _ => 0
    else 0

theorem roundedOff_of_covered (h : ¬ p.unfilled.isPositive = true) (book : Book) :
    p.roundedOff book = 0 := by
  cases book with
  | nil => rfl
  | cons l rest => rw [roundedOff, if_neg h]

theorem roundedOff_cons (hpos : p.unfilled.isPositive = true) (hnext : p.next l = .ok (some q))
    (rest : Book) : p.roundedOff (l :: rest) =
      p.unfilled.value - (p.take l).value - q.unfilled.value + q.roundedOff rest := by
  rw [roundedOff, if_pos hpos, hnext]

theorem sub_of_next (h : p.next l = .ok (some q)) : p.unfilled.sub? (p.take l) = some q.unfilled := by
  obtain ⟨-, -, -, -, hsub⟩ := next_eq_some_iff.mp h
  exact hsub

theorem value_take (p : Stage) (l : Level) :
    (p.take l).value = min l.quantity.value p.unfilled.value := Decimal.value_min _ _

theorem take_nonneg (hl : 0 ≤ l.quantity.value) (hp : 0 ≤ p.unfilled.value) :
    0 ≤ (p.take l).value := by
  rw [value_take]
  exact le_min hl hp

theorem take_le (p : Stage) (l : Level) : (p.take l).value ≤ p.unfilled.value := by
  rw [value_take]
  exact min_le_right _ _

theorem hasPlaces_take (hp : HasPlaces p.unfilled.value s) (hl : HasPlaces l.quantity.value s) :
    HasPlaces (p.take l).value s := by
  rw [value_take]
  rcases min_choice l.quantity.value p.unfilled.value with h | h
  · exact h.symm ▸ hl
  · exact h.symm ▸ hp

theorem unfilled_eq_zero (h : p.next l = .ok (some q)) (hall : p.unfilled.value ≤ l.quantity.value) :
    q.unfilled.value = 0 := by
  have hrest : p.unfilled.value - (p.take l).value = 0 := by
    rw [value_take, min_eq_right hall, sub_self]
  obtain ⟨d, hd, hexact⟩ := Decimal.exists_sub_of_mem (a := p.unfilled) (b := p.take l)
    (hrest ▸ ⟨.zero, Decimal.value_zero⟩)
  obtain rfl := Option.some.inj (hd.symm.trans (sub_of_next h))
  rw [hexact, hrest]

/-- A walk ends with nothing to cover exactly if the levels and what rounding took off make up what
was to cover. -/
theorem Reaches.covers_iff (h : Reaches p book q left) (hbook : book.IsStocked)
    (hp : 0 ≤ p.unfilled.value) (hends : q.unfilled.isPositive = true → left = []) :
    q.unfilled.value ≤ 0 ↔ p.unfilled.value ≤ book.depth + p.roundedOff book := by
  induction h with
  | here p book =>
    by_cases hpos : p.unfilled.isPositive = true
    · obtain rfl := hends hpos
      exact (add_zero (0 : ℚ)).symm ▸ Iff.rfl
    · have hzero : p.unfilled.value ≤ 0 := not_lt.mp fun h => hpos (Decimal.isPositive_iff.mpr h)
      rw [roundedOff_of_covered hpos, add_zero]
      exact ⟨fun _ => hzero.trans hbook.depth_nonneg, fun _ => hzero⟩
  | @level p p' q l rest left hpos hnext hreach ih =>
    obtain ⟨hlow, -⟩ := next_bounds (hbook l List.mem_cons_self) hp hnext
    rw [ih hbook.rest hlow hends, roundedOff_cons hpos hnext, Book.depth_cons, value_take]
    rcases le_total l.quantity.value p.unfilled.value with hle | hle
    · rw [min_eq_left hle]
      constructor <;> intro h <;> linarith
    · -- the last level that is needed: nothing is left, and nothing more is rounded
      have hzero := unfilled_eq_zero hnext hle
      have hcovered : ¬ p'.unfilled.isPositive = true := by
        rw [Decimal.isPositive_iff, hzero]
        exact lt_irrefl 0
      have hdepth := hbook.rest.depth_nonneg
      rw [min_eq_right hle, hzero, roundedOff_of_covered hcovered]
      constructor <;> intro _ <;> linarith

theorem roundedOff_cases (p : Stage) (l : Level) (rest : Book) : p.roundedOff (l :: rest) = 0 ∨
    ∃ q, p.next l = .ok (some q) ∧ p.roundedOff (l :: rest) =
      p.unfilled.value - (p.take l).value - q.unfilled.value + q.roundedOff rest := by
  by_cases hpos : p.unfilled.isPositive = true
  · cases hnext : p.next l with
    | error f => exact .inl (by rw [roundedOff, if_pos hpos, hnext])
    | ok reached =>
      cases reached with
      | none => exact .inl (by rw [roundedOff, if_pos hpos, hnext])
      | some q => exact .inr ⟨q, rfl, roundedOff_cons hpos hnext rest⟩
  · exact .inl (roundedOff_of_covered hpos _)

/-- At each level rounding takes off at most half of a place that the whole amount has room for. -/
theorem abs_roundedOff_le (hbook : book.IsStocked) (hp : 0 ≤ p.unfilled.value)
    (hs : s ≤ Decimal.maxScale) (hroom : p.unfilled.value * pow10 s ≤ Decimal.bound - 1) :
    |p.roundedOff book| * (2 * pow10 s) ≤ book.length := by
  have hplace : (0 : ℚ) < pow10 s := Nat.cast_pos.mpr (pow10_pos s)
  induction book generalizing p with
  | nil => simp [roundedOff]
  | cons l rest ih =>
    rcases roundedOff_cases p l rest with hzero | ⟨q, hnext, heq⟩
    · rw [hzero, abs_zero, zero_mul]
      exact Nat.cast_nonneg _
    · have hl := hbook l List.mem_cons_self
      obtain ⟨hlow, hhigh⟩ := next_bounds hl hp hnext
      have hhere := Decimal.abs_sub_sub_le hs (take_nonneg hl hp) (take_le p l) hroom
        (sub_of_next hnext)
      have hlater := ih hbook.rest hlow
        ((mul_le_mul_of_nonneg_right hhigh hplace.le).trans hroom)
      rw [abs_sub_comm] at hhere
      rw [heq, List.length_cons, Nat.cast_succ]
      calc |p.unfilled.value - (p.take l).value - q.unfilled.value + q.roundedOff rest| *
            (2 * pow10 s)
          ≤ (|p.unfilled.value - (p.take l).value - q.unfilled.value| + |q.roundedOff rest|) *
            (2 * pow10 s) := mul_le_mul_of_nonneg_right (abs_add_le _ _) (by linarith)
        _ ≤ rest.length + 1 := by
          rw [add_mul]
          linarith

/-- Nothing is rounded where no quantity has more places than the amount has room for. -/
theorem roundedOff_of_places (hbook : book.IsStocked) (hp : 0 ≤ p.unfilled.value)
    (hs : s ≤ Decimal.maxScale) (hroom : p.unfilled.value * pow10 s < Decimal.bound)
    (hplaces : HasPlaces p.unfilled.value s) (hlevels : ∀ l ∈ book, HasPlaces l.quantity.value s) :
    p.roundedOff book = 0 := by
  have hplace : (0 : ℚ) < pow10 s := Nat.cast_pos.mpr (pow10_pos s)
  induction book generalizing p with
  | nil => rfl
  | cons l rest ih =>
    rcases roundedOff_cases p l rest with hzero | ⟨q, hnext, heq⟩
    · exact hzero
    · have hl := hbook l List.mem_cons_self
      obtain ⟨hlow, hhigh⟩ := next_bounds hl hp hnext
      have hrest := hplaces.sub (hasPlaces_take hplaces (hlevels l List.mem_cons_self))
      have hless : p.unfilled.value - (p.take l).value ≤ p.unfilled.value :=
        sub_le_self _ (take_nonneg hl hp)
      obtain ⟨d, hd, hexact⟩ := Decimal.exists_sub_of_mem
        (Decimal.mem_range_of_le hrest hs (sub_nonneg.mpr (take_le p l)) hless hroom)
      obtain rfl := Option.some.inj (hd.symm.trans (sub_of_next hnext))
      rw [heq, hexact, sub_self, zero_add]
      exact ih hbook.rest hlow ((mul_le_mul_of_nonneg_right hhigh hplace.le).trans_lt hroom)
        (hexact ▸ hrest) fun m hm => hlevels m (List.mem_cons_of_mem _ hm)

end Stage

/-- A walk covers an amount exactly if the amount is at most the depth and what rounding took off. -/
theorem complete_iff {w : Walk} (hbook : book.IsStocked) (hpos : 0 ≤ amount.value)
    (hrun : run book amount = .ok (some w)) :
    w.complete = true ↔ amount.value ≤ book.depth + (Stage.start amount).roundedOff book := by
  obtain ⟨q, left, hreach, hends, rfl⟩ := run_eq_some_iff.mp hrun
  have hcovers := hreach.covers_iff hbook hpos hends
  rw [Stage.walk, Bool.not_eq_true', Bool.eq_false_iff, ne_eq, Decimal.isPositive_iff, not_lt]
  exact hcovers

end Walk

namespace Book

theorem output_of_incomplete (hbook : book.IsStocked)
    (h : ∀ w, Walk.run book amount = .ok (some w) → w.complete = false) (side : BookSide)
    (decimals : Nat) : book.output amount side decimals = .ok .zero := by
  have hnothing : book.outputFor amount side = .ok .zero := by
    obtain ⟨reached, hrun⟩ := Walk.run_ok hbook amount
    unfold outputFor
    split
    · rw [hrun]
      cases reached with
      | none => rfl
      | some w => simp only [h w hrun, Bool.false_eq_true, if_false]
    · rfl
  rw [output, hnothing]
  exact congrArg Except.ok (Decimal.units_zero decimals)

/-- An amount beyond the depth is taken as covered exactly if rounding takes off what the levels lack.
Otherwise nothing is quoted for it: so where the amount has room for every place that it and the
quantities have, and where the levels lack more than half of a place each that the amount has room
for. -/
theorem output_beyond_depth (hbook : book.IsStocked) (hbeyond : book.depth < amount.value) :
    (∀ w, Walk.run book amount = .ok (some w) →
      (w.complete = true ↔
        amount.value - book.depth ≤ (Walk.Stage.start amount).roundedOff book)) ∧
    ((Walk.Stage.start amount).roundedOff book < amount.value - book.depth →
      ∀ side decimals, book.output amount side decimals = .ok .zero) ∧
    ∀ s ≤ Decimal.maxScale, amount.value * pow10 s ≤ Decimal.bound - 1 →
      (HasPlaces amount.value s → (∀ l ∈ book, HasPlaces l.quantity.value s) →
        ∀ side decimals, book.output amount side decimals = .ok .zero) ∧
      ((book.length : ℚ) < (amount.value - book.depth) * (2 * pow10 s) →
        ∀ side decimals, book.output amount side decimals = .ok .zero) := by
  have hpos : 0 ≤ amount.value := hbook.depth_nonneg.trans hbeyond.le
  have hcomplete : ∀ w, Walk.run book amount = .ok (some w) → (w.complete = true ↔
      amount.value - book.depth ≤ (Walk.Stage.start amount).roundedOff book) := by
    intro w hrun
    rw [Walk.complete_iff hbook hpos hrun, sub_le_iff_le_add']
  have hzero : (Walk.Stage.start amount).roundedOff book < amount.value - book.depth →
      ∀ side decimals, book.output amount side decimals = .ok .zero := by
    intro hlacks
    refine output_of_incomplete hbook fun w hrun => ?_
    rw [← Bool.not_eq_true, hcomplete w hrun]
    exact not_le.mpr hlacks
  refine ⟨hcomplete, hzero, fun s hs hroom => ⟨fun hplaces hlevels => hzero ?_, fun hlacks => hzero ?_⟩⟩
  · have hexact := Walk.Stage.roundedOff_of_places (p := Walk.Stage.start amount) hbook hpos hs
      (hroom.trans_lt (sub_one_lt _)) hplaces hlevels
    rw [hexact]
    exact sub_pos.mpr hbeyond
  · have hplace : (0 : ℚ) < 2 * pow10 s := mul_pos two_pos (Nat.cast_pos.mpr (pow10_pos s))
    have hbounded := Walk.Stage.abs_roundedOff_le (p := Walk.Stage.start amount) hbook hpos hs hroom
    exact (le_abs_self _).trans_lt
      (lt_of_mul_lt_mul_right (hbounded.trans_lt hlacks) hplace.le)

/-- Two levels of five, and one millionth more than ten. -/
theorem output_beyond_depth_millionth :
    let five : Decimal := ⟨5, 0, by decide, by decide⟩
    let book : Book := [⟨⟨10, 0, by decide, by decide⟩, five⟩, ⟨⟨11, 0, by decide, by decide⟩, five⟩]
    let amount : Decimal := ⟨10000001, 6, by decide, by decide⟩
    book.IsStocked ∧ book.depth < amount.value ∧
      ∀ side decimals, book.output amount side decimals = .ok .zero := by
  intro five book amount
  have hstocked : book.IsStocked :=
    IsSound.isStocked (List.forall_mem_cons.mpr ⟨by decide, List.forall_mem_singleton.mpr (by decide)⟩)
  have hbeyond : book.depth < amount.value := by decide +kernel
  have hroom : amount.value * pow10 6 ≤ Decimal.bound - 1 := by decide +kernel
  have hlevels : ∀ l ∈ book, HasPlaces l.quantity.value 6 := by
    intro l hl
    refine Decimal.hasPlaces_value ?_
    revert l
    decide
  obtain ⟨-, -, hplaces⟩ := output_beyond_depth hstocked hbeyond
  exact ⟨hstocked, hbeyond,
    (hplaces 6 (by decide) hroom).1 (Decimal.hasPlaces_value (le_refl 6)) hlevels⟩

/-- Of a hundred thousand million the levels lack four units of the eighteenth place. What the first of
them leaves has room for seventeen places only, and rounding takes off more than is missing. -/
theorem not_output_beyond_depth : ¬ ∀ (book : Book) (amount : Decimal) (side : BookSide)
    (decimals : Nat), book.IsSound → book.depth < amount.value →
    book.output amount side decimals = .ok .zero := by
  intro hnothing
  let one : Decimal := ⟨1, 0, by decide, by decide⟩
  let book : Book := [⟨one, ⟨6, 18, by decide, by decide⟩⟩,
    ⟨one, ⟨9999999999999999999999999999, 17, by decide, by decide⟩⟩]
  let amount : Decimal := ⟨100000000000, 0, by decide, by decide⟩
  have hsound : book.IsSound :=
    List.forall_mem_cons.mpr ⟨by decide, List.forall_mem_singleton.mpr (by decide)⟩
  have hbeyond : book.depth < amount.value := by decide +kernel
  have hquoted : book.output amount .bids 0 = .ok ⟨100000000000, by decide⟩ := by decide +kernel
  rw [hnothing book amount .bids 0 hsound hbeyond] at hquoted
  exact absurd hquoted (by decide)

end Book
end QuoteDesk
