import QuoteDesk.Cache.Books
import QuoteDesk.Proofs.Decimal.Text
import QuoteDesk.Proofs.Json.Text
/-!
The text of a book. A level is written as two printed decimals, and both come back with their scale.
-/
namespace QuoteDesk

namespace Level

theorem numberOf?_print (d : Decimal) : numberOf? (.string d.print) = some d := by
  rw [numberOf?, d.read_print]
  rfl

theorem ofJson?_toJson (l : Level) : ofJson? l.toJson = some l := by
  simp only [toJson, ofJson?, numberOf?_print]
  rfl

theorem readsBack_toJson (l : Level) (depth : Nat) (hdepth : 0 < depth) :
    l.toJson.ReadsBack 4 (depth + 1) := by
  have htexts : ∀ x ∈ [Json.string l.price.print, .string l.quantity.print], ∃ s, x = .string s := by
    intro x hx
    rcases List.mem_cons.mp hx with hprice | hx
    · exact ⟨_, hprice⟩
    · exact ⟨_, List.mem_singleton.mp hx⟩
  have hread : ∀ x ∈ [Json.string l.price.print, .string l.quantity.print], x.ReadsBack 1 depth := by
    intro x hx
    obtain ⟨s, rfl⟩ := htexts x hx
    exact Json.readsBack_string s depth
  have hopens : ∀ x ∈ [Json.string l.price.print, .string l.quantity.print], x.Opens := by
    intro x hx
    obtain ⟨s, rfl⟩ := htexts x hx
    exact Json.opens_string s
  exact Json.readsBack_array hread hopens hdepth

end Level

theorem Book.ofJson?_toJson (b : Book) : Book.ofJson? b.toJson = some b := by
  change (b.map Level.toJson).mapM Level.ofJson? = some b
  induction b with
  | nil => rfl
  | cons l b ih =>
    rw [List.map_cons, List.mapM_cons, l.ofJson?_toJson, ih]
    rfl

theorem Json.read_write_book (b : Book) : Json.read b.toJson.write = some b.toJson := by
  have hread : ∀ x ∈ b.map Level.toJson, x.ReadsBack 4 127 := by
    intro x hx
    obtain ⟨l, -, rfl⟩ := List.mem_map.mp hx
    exact l.readsBack_toJson 126 (by decide)
  have hopens : ∀ x ∈ b.map Level.toJson, x.Opens := by
    intro x hx
    obtain ⟨l, -, rfl⟩ := List.mem_map.mp hx
    exact Json.opens_array _
  exact Json.read_write_array hread hopens rfl (Nat.le_refl 4)

/-- The text that is kept of a book gives the book back. -/
theorem Book.read_write (b : Book) : Book.read b.write = some b := by
  rw [Book.read, Book.write, Json.read_write_book, Option.bind_some, Book.ofJson?_toJson]

theorem Cache.bookOf_write (b : Book) : Cache.bookOf (.ok (some b.write)) = .ok b := by
  simp only [bookOf, Book.read_write]

end QuoteDesk
