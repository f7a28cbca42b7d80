import QuoteDesk.Proofs.Cache.Books
/-!
What is left of the latest book under a key: the book until its lifetime is over, and from then on
nothing that a read would answer. Looks at the cache and denied addresses do not change that.
-/
namespace QuoteDesk.Cache

variable {c c' : Cache} {scope : Scope} {key : String} {lifetime now : Nat}
  {latest : Option (Nat × Book)}

/-- What there is to see at a time of a book and the time it was written at: the book before the end of
its lifetime, then nothing. -/
def shown (lifetime now : Nat) : Option (Nat × Book) → Book
  | some (t, b) => if now < t + lifetime then b else []
  | none => []

/-- Under a key there is what the latest book written there has left: the book until its time is over,
and from then on the same or nothing. -/
def Reflects (c : Cache) (key : String) (lifetime now : Nat) : Option (Nat × Book) → Prop
  | none => c.slots.find? key = none
  | some (t, b) =>
    c.slots.find? key = some ⟨.text b.write, some (t + lifetime)⟩ ∨
      c.slots.find? key = none ∧ t + lifetime ≤ now

theorem Reflects.of_find?_eq (h : c.Reflects key lifetime now latest)
    (heq : c'.slots.find? key = c.slots.find? key) : c'.Reflects key lifetime now latest := by
  cases latest with
  | none => exact heq.trans h
  | some written => exact h.imp heq.trans (And.imp_left heq.trans)

theorem Reflects.later (h : c.Reflects key lifetime now latest) {now' : Nat} (hle : now ≤ now') :
    c.Reflects key lifetime now' latest := by
  cases latest with
  | none => exact h
  | some written => exact h.imp_right (And.imp_right (Nat.le_trans · hle))

theorem Reflects.visit (h : c.Reflects key lifetime now latest) (hkey : key ≠ scope.blacklistKey)
    (hv : c.Visit scope now c') : c'.Reflects key lifetime now latest := by
  rcases hv.find? hkey with hsame | ⟨hnone, hdead⟩
  · exact h.of_find?_eq hsame
  · cases latest with
    | none => exact hnone
    | some written =>
      refine .inr ⟨hnone, ?_⟩
      rcases h with hslot | ⟨-, hover⟩
      · simpa [Slot.isLive] using hdead _ hslot
      · exact hover

theorem Reflects.readBook {base quote : String} {side : BookSide}
    (h : c.Reflects (scope.bookKey base quote side) lifetime now latest) :
    (c.readBook now scope base quote side).1 = .ok (shown lifetime now latest) := by
  simp only [Cache.readBook]
  cases latest with
  | none =>
    rw [get_of_none h]
    rfl
  | some written =>
    obtain ⟨t, b⟩ := written
    rcases h with hslot | ⟨hnone, hover⟩
    · rw [get_of_text hslot]
      by_cases hlive : now < t + lifetime
      · simp only [shown, hlive, if_true, bookOf_write]
      · simp only [shown, hlive, if_false]
        rfl
    · rw [get_of_none hnone]
      simp only [shown, Nat.not_lt.mpr hover, if_false]
      rfl

end QuoteDesk.Cache
