import QuoteDesk.Proofs.Desk.Cached
/-!
Pricing never fails. Main statement: a walk of any amount over levels without negative quantities stays
between zero and that amount at every level and divides by nothing that is zero, and as the books of a
desk are of this kind in all its states, every request for prices is answered.
-/
namespace QuoteDesk

namespace Session

open Walk

variable {settings : Settings} {s : Session}

/-- A walk over levels without quantities below zero ends, whatever the amount and the prices. A level
that it comes to with something to cover leaves a number in range, between zero and the whole amount.
What has no denominator yields zero. So prices are answered in every state that a desk comes to. -/
theorem walk_covers_within_amount {book : Book} (hbook : book.IsStocked) (amount : Decimal)
    (hs : Reachable settings s) :
    (∀ q l rest, (Stage.start amount).Reaches book q (l :: rest) → 0 < q.unfilled.value →
      ∃ left, q.unfilled.sub? (q.take l) = some left) ∧
    (0 < amount.value → ∀ q left, (Stage.start amount).Reaches book q left →
      0 ≤ q.unfilled.value ∧ q.unfilled.value ≤ amount.value) ∧
    (∃ w, Walk.run book amount = .ok w) ∧
    (∀ side, (∃ out, book.outputFor amount side = .ok out) ∧
      ∀ w, Walk.run book amount = .ok (some w) → (w.ratio side).2.isZero = true →
        book.outputFor amount side = .ok .zero) ∧
    ∀ src dest amounts side limit, ∃ answer,
      ((s.desk settings).prices src dest amounts side limit).1 = .ok answer := by
  obtain ⟨verifier, es, rfl⟩ := hs
  refine ⟨fun q l rest hreach hpos => ?_, fun hpos q left hreach => hreach.bounds hbook hpos.le,
    Walk.run_ok hbook amount, fun side => ⟨Book.outputFor_ok hbook amount side, ?_⟩,
    prices_ok (wellKept_initial settings verifier es)⟩
  · obtain ⟨left, hleft, -⟩ :=
      Stage.exists_left (hbook l (hreach.mem List.mem_cons_self)) hpos.le
    exact ⟨left, hleft⟩
  · exact fun w hrun hzero => Book.outputFor_of_isZero hrun hzero

def largest : Decimal := ⟨79228162514264337593543950335, 0, by decide, Nat.zero_le _⟩

def smallest : Decimal := ⟨1, Decimal.maxScale, by decide, Nat.le_refl _⟩

def oddLevels : Book := [⟨.zero, smallest⟩, ⟨⟨-1, 0, by decide, Nat.zero_le _⟩, largest⟩]

/-- The largest amount less the smallest is rounded to that amount again: after the first level all of
it is still to cover, and no more. -/
theorem walk_covers_within_amount_largest :
    oddLevels.IsStocked ∧ Reachable .brisk ((initial (.fixed true [])).run .brisk opening) ∧
      ∃ q rest, (Stage.start largest).Reaches oddLevels q rest ∧ rest.length = 1 ∧
        q.unfilled = largest ∧ 0 ≤ q.unfilled.value ∧ q.unfilled.value ≤ largest.value ∧
        ∃ w, Walk.run oddLevels largest = .ok w := by
  have hstocked : oddLevels.IsStocked := by
    intro l hl
    have hcoefficient : 0 ≤ l.quantity.coefficient := by
      revert l
      decide +kernel
    exact Decimal.value_nonneg_iff.mpr hcoefficient
  have hreachable : Reachable .brisk ((initial (.fixed true [])).run .brisk opening) :=
    ⟨_, _, rfl⟩
  have hpos : 0 < largest.value := Decimal.value_pos_iff.mpr (by decide)
  have hnext : (Stage.start largest).next ⟨.zero, smallest⟩ =
      .ok (some ⟨largest, smallest, ⟨0, 28, by decide, by decide⟩⟩) := by decide +kernel
  have hreach := Stage.Reaches.level (by decide) hnext
    (.here _ [⟨⟨-1, 0, by decide, Nat.zero_le _⟩, largest⟩])
  obtain ⟨-, hbounds, hrun, -⟩ := walk_covers_within_amount hstocked largest hreachable
  obtain ⟨hlow, hhigh⟩ := hbounds hpos _ _ hreach
  exact ⟨hstocked, hreachable, _, _, hreach, rfl, rfl, hlow, hhigh, hrun⟩

end Session
end QuoteDesk
