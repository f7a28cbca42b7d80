import QuoteDesk.Listing
import QuoteDesk.Pricing
import QuoteDesk.Proofs.Decimal.Value
/-!
Quotes on books without quantities below zero. No level takes more than is still to cover, so at every
level that is between zero and the whole amount, though it is rounded there. So a walk never leaves the
range of decimals at that place, and every list of amounts gets its quote.
-/
namespace QuoteDesk

def Book.IsSound (b : Book) : Prop := ∀ l ∈ b, l.isSound = true

/-- No level has a quantity below zero. Prices may be anything. -/
def Book.IsStocked (b : Book) : Prop := ∀ l ∈ b, 0 ≤ l.quantity.value

theorem Level.isSound_iff {l : Level} :
    l.isSound = true ↔ 0 < l.price.coefficient ∧ 0 ≤ l.quantity.coefficient := by
  simp [isSound, Decimal.isPositive, Decimal.isNegative]

theorem Book.IsSound.isStocked {b : Book} (h : b.IsSound) : b.IsStocked := fun l hl =>
  Decimal.value_nonneg_iff.mpr (Level.isSound_iff.mp (h l hl)).2

namespace Walk

structure Stage where
  unfilled : Decimal
  quantity : Decimal
  notional : Decimal
  deriving DecidableEq

namespace Stage

def start (amount : Decimal) : Stage := ⟨amount, .zero, .zero⟩

def walk (p : Stage) : Walk := ⟨p.quantity, p.notional, !p.unfilled.isPositive⟩

def take (p : Stage) (l : Level) : Decimal := Decimal.min l.quantity p.unfilled

/-- Where a walk stands after a level. There is no walk when a sum or a product leaves the range. -/
def next (p : Stage) (l : Level) : Except Fault (Option Stage) :=
  match (l.price.mul? (p.take l)).bind p.notional.add?, p.quantity.add? (p.take l) with
  | some notional, some quantity =>
    match p.unfilled.sub? (p.take l) with
    | some unfilled => .ok (some ⟨unfilled, quantity, notional⟩)
    | none => .error ⟨⟩
  | _, _ => .ok none

def resume (p : Stage) (book : Book) : Except Fault (Option Walk) :=
  Walk.resume p.unfilled p.quantity p.notional book

/-- A walk that stands at one place before some levels comes to another place before others. -/
inductive Reaches : Stage → Book → Stage → Book → Prop where
  | here (p : Stage) (book : Book) : Reaches p book p book
  | level {p p' q : Stage} {l : Level} {rest left : Book} (hpos : p.unfilled.isPositive = true)
      (hnext : p.next l = .ok (some p')) (h : Reaches p' rest q left) :
      Reaches p (l :: rest) q left

variable {p q : Stage} {l : Level} {rest book left : Book} {w : Walk} {f : Fault}

theorem next_eq_some_iff : p.next l = .ok (some q) ↔
    ∃ product, l.price.mul? (p.take l) = some product ∧ p.notional.add? product = some q.notional ∧
      p.quantity.add? (p.take l) = some q.quantity ∧
      p.unfilled.sub? (p.take l) = some q.unfilled := by
  unfold next
  constructor
  · intro h
    split at h
    · next notional quantity hnotional hquantity =>
      obtain ⟨product, hproduct, hsum⟩ := Option.bind_eq_some_iff.mp hnotional
      split at h
      · next unfilled hunfilled =>
        obtain rfl := Option.some.inj (Except.ok.inj h)
        exact ⟨product, hproduct, hsum, hquantity, hunfilled⟩
      · cases h
    · cases h
  · rintro ⟨product, hproduct, hsum, hquantity, hunfilled⟩
    rw [hproduct, Option.bind_some, hsum, hquantity, hunfilled]

theorem resume_cons (p : Stage) (l : Level) (rest : Book) : p.resume (l :: rest) =
    if p.unfilled.isPositive then
      match p.next l with
      | .ok (some q) => q.resume rest
      | .ok none => .ok none
      | .error f => .error f
    else .ok (some ⟨p.quantity, p.notional, true⟩) := by
  by_cases hpos : p.unfilled.isPositive = true
  · simp only [resume, Walk.resume, next, take, hpos, if_true]
    cases (l.price.mul? (Decimal.min l.quantity p.unfilled)).bind p.notional.add? with
    | none => rfl
    | some notional =>
      cases p.quantity.add? (Decimal.min l.quantity p.unfilled) with
      | none => rfl
      | some quantity => cases p.unfilled.sub? (Decimal.min l.quantity p.unfilled) <;> rfl
  · rw [if_neg hpos, resume, Walk.resume, if_neg hpos]

/-- A walk fails exactly where a level that it comes to makes it fail. -/
theorem resume_eq_error_iff : p.resume book = .error f ↔
    ∃ q l rest, Reaches p book q (l :: rest) ∧ q.unfilled.isPositive = true ∧
      q.next l = .error f := by
  constructor
  · intro h
    induction book generalizing p with
    | nil => cases h
    | cons l rest ih =>
      rw [resume_cons] at h
      split at h
      · next hpos =>
        split at h
        · next p' hnext =>
          obtain ⟨q, l', rest', hreach, hq⟩ := ih h
          exact ⟨q, l', rest', .level hpos hnext hreach, hq⟩
        · cases h
        · next hnext =>
          obtain rfl := Except.error.inj h
          exact ⟨p, l, rest, .here p _, hpos, hnext⟩
      · cases h
  · rintro ⟨q, l, rest, hreach, hpos, hnext⟩
    generalize hlevels : l :: rest = levels at hreach
    induction hreach with
    | here p book =>
      rw [← hlevels, resume_cons, if_pos hpos, hnext]
    | level hpos' hnext' _ ih =>
      rw [resume_cons, if_pos hpos', hnext']
      exact ih hpos hnext hlevels

/-- A walk ends where nothing is left to cover, or behind the last level. -/
theorem resume_eq_some_iff : p.resume book = .ok (some w) ↔
    ∃ q left, Reaches p book q left ∧ (q.unfilled.isPositive = true → left = []) ∧ q.walk = w := by
  constructor
  · intro h
    induction book generalizing p with
    | nil => exact ⟨p, [], .here p [], fun _ => rfl, Option.some.inj (Except.ok.inj h)⟩
    | cons l rest ih =>
      rw [resume_cons] at h
      split at h
      · next hpos =>
        split at h
        · next p' hnext =>
          obtain ⟨q, left, hreach, hq⟩ := ih h
          exact ⟨q, left, .level hpos hnext hreach, hq⟩
        · cases h
        · cases h
      · next hpos =>
        obtain rfl := Option.some.inj (Except.ok.inj h)
        refine ⟨p, l :: rest, .here p _, fun h => absurd h hpos, ?_⟩
        rw [walk, Bool.eq_false_iff.mpr hpos]
        rfl
  · rintro ⟨q, left, hreach, hends, rfl⟩
    induction hreach with
    | here p book =>
      cases book with
      | nil => rfl
      | cons l rest =>
        have hpos : ¬ p.unfilled.isPositive = true := fun h => nomatch hends h
        rw [resume_cons, if_neg hpos, walk, Bool.eq_false_iff.mpr hpos]
        rfl
    | level hpos hnext _ ih =>
      rw [resume_cons, if_pos hpos, hnext]
      exact ih hends

theorem Reaches.mem (h : Reaches p book q left) (hl : l ∈ left) : l ∈ book := by
  induction h with
  | here => exact hl
  | level _ _ _ ih => exact List.mem_cons_of_mem _ (ih hl)

/-- What a level takes is there to be taken, and what is left is between zero and the amount so far. -/
theorem exists_left (hl : 0 ≤ l.quantity.value) (hp : 0 ≤ p.unfilled.value) :
    ∃ d, p.unfilled.sub? (p.take l) = some d ∧ 0 ≤ d.value ∧ d.value ≤ p.unfilled.value := by
  unfold take
  rcases Decimal.min_eq l.quantity p.unfilled with ⟨hmin, hle⟩ | hmin
  · rw [hmin]
    exact Decimal.exists_sub hl hle
  · rw [hmin]
    exact Decimal.exists_sub hp (le_refl _)

theorem next_bounds (hl : 0 ≤ l.quantity.value) (hp : 0 ≤ p.unfilled.value)
    (h : p.next l = .ok (some q)) :
    0 ≤ q.unfilled.value ∧ q.unfilled.value ≤ p.unfilled.value := by
  obtain ⟨d, hd, hbounds⟩ := exists_left hl hp
  unfold next at h
  split at h
  · rw [hd] at h
    obtain rfl := Option.some.inj (Except.ok.inj h)
    exact hbounds
  · cases h

theorem next_ne_error (hl : 0 ≤ l.quantity.value) (hp : 0 ≤ p.unfilled.value) :
    p.next l ≠ .error f := by
  obtain ⟨d, hd, -⟩ := exists_left hl hp
  unfold next
  split
  · rw [hd]
    nofun
  · nofun

/-- At every place that a walk comes to, what is still to cover is between zero and the amount at its
start. -/
theorem Reaches.bounds (h : Reaches p book q left) (hbook : book.IsStocked)
    (hp : 0 ≤ p.unfilled.value) : 0 ≤ q.unfilled.value ∧ q.unfilled.value ≤ p.unfilled.value := by
  induction h with
  | here => exact ⟨hp, le_refl _⟩
  | @level p p' q l rest left _ hnext _ ih =>
    obtain ⟨hlow, hhigh⟩ := next_bounds (hbook l List.mem_cons_self) hp hnext
    obtain ⟨hlow', hhigh'⟩ := ih (fun l hl => hbook l (List.mem_cons_of_mem _ hl)) hlow
    exact ⟨hlow', hhigh'.trans hhigh⟩

end Stage

theorem run_ok {book : Book} (h : book.IsStocked) (amount : Decimal) :
    ∃ w, run book amount = .ok w := by
  cases hrun : run book amount with
  | ok w => exact ⟨w, rfl⟩
  | error f =>
    have hfails : (Stage.start amount).resume book = .error f := hrun
    obtain ⟨q, l, rest, hreach, hpos, hnext⟩ := Stage.resume_eq_error_iff.mp hfails
    have hl : 0 ≤ l.quantity.value := h l (hreach.mem List.mem_cons_self)
    exact absurd hnext (Stage.next_ne_error hl (Decimal.isPositive_iff.mp hpos).le)

theorem run_eq_some_iff {book : Book} {amount : Decimal} {w : Walk} :
    run book amount = .ok (some w) ↔
      ∃ q left, (Stage.start amount).Reaches book q left ∧
        (q.unfilled.isPositive = true → left = []) ∧ q.walk = w :=
  Stage.resume_eq_some_iff (p := Stage.start amount)

example : run [⟨.zero, ⟨-1, 0, by decide, by decide⟩⟩]
    ⟨79228162514264337593543950335, 0, by decide, by decide⟩ = .error ⟨⟩ := by decide +kernel

/-- Without a denominator there is no yield: no division by zero is tried. -/
theorem yield?_of_isZero {w : Walk} {side : BookSide} (h : (w.ratio side).2.isZero = true)
    (amount : Decimal) : w.yield? amount side = none := by
  have hdiv : ∀ d : Decimal, d.div? (w.ratio side).2 = none := fun d => if_pos h
  have haverage : w.averagePrice? side = none := by simp [averagePrice?, hdiv]
  have hproduct : (amount.mul? (w.ratio side).1).bind (·.div? (w.ratio side).2) = none := by
    simp [hdiv]
  rw [yield?, hproduct, haverage]
  rfl

end Walk

theorem Book.outputFor_of_complete {b : Book} {amount : Decimal} {w : Walk} (hpos : 0 < amount.value)
    (hrun : Walk.run b amount = .ok (some w)) (hcomplete : w.complete = true) (side : BookSide) :
    b.outputFor amount side = .ok ((w.yield? amount side).getD .zero) := by
  rw [outputFor, if_pos (Decimal.isPositive_iff.mpr hpos), hrun]
  simp only [hcomplete, if_true]

theorem Book.outputFor_of_isZero {b : Book} {amount : Decimal} {side : BookSide} {w : Walk}
    (hrun : Walk.run b amount = .ok (some w)) (hzero : (w.ratio side).2.isZero = true) :
    b.outputFor amount side = .ok .zero := by
  unfold outputFor
  split
  · simp only [hrun, Walk.yield?_of_isZero hzero, Option.getD_none, ite_self]
  · rfl

theorem Book.outputFor_ok {b : Book} (h : b.IsStocked) (amount : Decimal) (side : BookSide) :
    ∃ out, b.outputFor amount side = .ok out := by
  obtain ⟨w, hw⟩ := Walk.run_ok h amount
  unfold outputFor
  split
  · rw [hw]
    cases w <;> exact ⟨_, rfl⟩
  · exact ⟨_, rfl⟩

theorem Book.output_ok {b : Book} (h : b.IsStocked) (amount : Decimal) (side : BookSide)
    (decimals : Nat) : ∃ out, b.output amount side decimals = .ok out := by
  obtain ⟨out, hout⟩ := outputFor_ok h amount side
  exact ⟨_, by rw [output, hout]; rfl⟩

theorem exists_mapM_ok {α β ε : Type} {f : α → Except ε β} {xs : List α}
    (h : ∀ x ∈ xs, ∃ y, f x = .ok y) : ∃ ys, xs.mapM f = .ok ys := by
  induction xs with
  | nil => exact ⟨[], rfl⟩
  | cons x xs ih =>
    obtain ⟨y, hy⟩ := h x List.mem_cons_self
    obtain ⟨ys, hys⟩ := ih fun z hz => h z (List.mem_cons_of_mem _ hz)
    exact ⟨y :: ys, by rw [List.mapM_cons, hy, hys]; rfl⟩

theorem Market.quoteOn_ok (m : Market) (r : Route) (side : SwapSide) {book : Book}
    (h : book.IsStocked) (amounts : List Units) : ∃ q, m.quoteOn r side book amounts = .ok q := by
  have hprice : ∀ bookSide inDecimals outDecimals, ∀ amount ∈ amounts,
      ∃ out, priceOf book bookSide inDecimals outDecimals amount = .ok out := by
    intro bookSide inDecimals outDecimals amount _
    unfold priceOf
    split
    · exact Book.output_ok h _ _ _
    · exact ⟨_, rfl⟩
  obtain ⟨prices, hprices⟩ := exists_mapM_ok (hprice (side.bookSide r.srcIsBase)
    (r.fixedAndFree side).1.decimals (r.fixedAndFree side).2.decimals)
  unfold quoteOn
  simp only [hprices]
  exact ⟨_, rfl⟩

end QuoteDesk
