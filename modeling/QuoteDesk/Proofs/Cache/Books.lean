import QuoteDesk.Proofs.Book.Text
import QuoteDesk.Proofs.Book.Walk
import QuoteDesk.Proofs.Cache.DenySet
/-!
Books in the cache beside the deny set. What is kept under any key but that of the deny set is the text
of a book that may be published, and neither reads nor new books nor denied addresses change that.
-/
namespace QuoteDesk

namespace Cache

variable {c c' : Cache} {scope : Scope} {now : Nat}

/-- What is done to a cache apart from publishing: it is left alone, a key is read, or an address is
denied. -/
inductive Visit (scope : Scope) (now : Nat) (c : Cache) : Cache → Prop where
  | alone : Visit scope now c c
  | read (key : String) : Visit scope now c (c.afterSight key (c.look now key))
  | deny (address : String) :
    Visit scope now c (c.add now scope.blacklistKey (Text.normalize address)).2

theorem find?_afterSight (c : Cache) (now : Nat) (key k : String) :
    (c.afterSight key (c.look now key)).slots.find? k = c.slots.find? k ∨
      (c.afterSight key (c.look now key)).slots.find? k = none ∧
        ∀ slot, c.slots.find? k = some slot → slot.isLive now = false := by
  by_cases hk : k = key
  · subst hk
    cases hs : c.slots.find? k with
    | none => exact .inl (by simp [look, hs, afterSight])
    | some slot =>
      by_cases hlive : slot.isLive now = true
      · exact .inl (by simp [look, hs, hlive, afterSight])
      · refine .inr ⟨by simp [look, hs, hlive, afterSight, drop, Table.find?_erase], ?_⟩
        intro slot' hslot
        rw [← Option.some.inj hslot]
        exact Bool.not_eq_true _ ▸ hlive
  · exact .inl (find?_get now (Ne.symm hk))

theorem exists_of_look_live {key : String} {content : Content} (h : c.look now key = .live content) :
    ∃ slot, c.slots.find? key = some slot ∧ slot.content = content := by
  unfold look at h
  split at h
  · cases h
  · next slot hslot =>
    split at h
    · exact ⟨slot, hslot, Sight.live.inj h⟩
    · cases h

theorem Visit.find? (h : Visit scope now c c') {key : String} (hkey : key ≠ scope.blacklistKey) :
    c'.slots.find? key = c.slots.find? key ∨
      c'.slots.find? key = none ∧ ∀ slot, c.slots.find? key = some slot → slot.isLive now = false := by
  cases h with
  | alone => exact .inl rfl
  | read k => exact find?_afterSight c now k key
  | deny address => exact .inl (find?_add c now hkey _)

/-- What is kept: under the key of the deny set a set without end, its members in normal form; under
every other key a book that may be published, not an empty one, for a time. -/
structure WellKept (scope : Scope) (c : Cache) : Prop where
  denied : ∀ slot, c.slots.find? scope.blacklistKey = some slot →
    ∃ set, slot = ⟨.members set, none⟩ ∧ ∀ e ∈ set.entries, Text.normalize e.1 = e.1
  book : ∀ key slot, key ≠ scope.blacklistKey → c.slots.find? key = some slot →
    ∃ (b : Book) (expiry : Nat), slot = ⟨.text b.write, some expiry⟩ ∧ b ≠ [] ∧ b.IsSound

theorem wellKept_empty (scope : Scope) : WellKept scope .empty :=
  ⟨nofun, nofun⟩

theorem WellKept.keepsSet (h : WellKept scope c) : KeepsSet c scope.blacklistKey := by
  intro slot hslot
  obtain ⟨set, hset, -⟩ := h.denied slot hslot
  exact ⟨set, hset⟩

theorem WellKept.visit (h : WellKept scope c) (hv : Visit scope now c c') : WellKept scope c' := by
  refine ⟨fun slot hslot => ?_, fun key slot hkey hslot => ?_⟩
  · cases hv with
    | alone => exact h.denied slot hslot
    | read key =>
      rcases find?_afterSight c now key scope.blacklistKey with hsame | ⟨hnone, -⟩
      · exact h.denied slot (hsame ▸ hslot)
      · rw [hnone] at hslot
        cases hslot
    | deny address =>
      have hinsert : ∀ set : Table Unit, (∀ e ∈ set.entries, Text.normalize e.1 = e.1) →
          ∀ e ∈ (set.insert (Text.normalize address) ()).entries, Text.normalize e.1 = e.1 := by
        intro set hset e he
        rcases Table.mem_place he with rfl | he
        · exact Text.normalize_normalize address
        · exact hset e he
      unfold add at hslot
      split at hslot
      · exact h.denied slot hslot
      · next set hlook =>
        rw [Table.find?_insert, if_pos rfl] at hslot
        obtain ⟨kept, hkept, hcontent⟩ := exists_of_look_live hlook
        obtain ⟨set', rfl, hset⟩ := h.denied kept hkept
        obtain rfl := Content.members.inj hcontent
        exact ⟨_, (Option.some.inj hslot).symm, hinsert _ hset⟩
      · rw [Table.find?_insert, if_pos rfl] at hslot
        exact ⟨_, (Option.some.inj hslot).symm, hinsert .empty fun e he => by cases he⟩
  · rcases hv.find? hkey with hsame | ⟨hnone, -⟩
    · exact h.book key slot hkey (hsame ▸ hslot)
    · rw [hnone] at hslot
      cases hslot

theorem WellKept.writeBook (h : WellKept scope c) {b : Book} (hb : b ≠ []) (hsound : b.IsSound)
    (now lifetime : Nat) (base quote : String) (side : BookSide) :
    WellKept scope (c.writeBook now scope base quote side lifetime b) := by
  have hkey := scope.bookKey_ne_blacklistKey base quote side
  refine ⟨fun slot hslot => ?_, fun key slot hne hslot => ?_⟩
  · rw [Cache.writeBook, find?_put now lifetime _ hkey] at hslot
    exact h.denied slot hslot
  · rw [Cache.writeBook, put, Table.find?_insert] at hslot
    split at hslot
    · exact ⟨b, _, (Option.some.inj hslot).symm, hb, hsound⟩
    · exact h.book key slot hne hslot

theorem get_of_none {key : String} (h : c.slots.find? key = none) (now : Nat) :
    (c.get now key).1 = .ok none := by
  simp [get, look, h, Sight.text?]

theorem get_of_text {key value : String} {expiry : Nat}
    (h : c.slots.find? key = some ⟨.text value, some expiry⟩) (now : Nat) :
    (c.get now key).1 = .ok (if now < expiry then some value else none) := by
  by_cases hlive : now < expiry <;> simp [get, look, h, Slot.isLive, hlive, Sight.text?]

theorem get_put (c : Cache) (now later lifetime : Nat) (key value : String) :
    ((c.put now key lifetime value).get later key).1 =
      .ok (if later < now + lifetime then some value else none) := by
  refine get_of_text ?_ later
  rw [put, Table.find?_insert, if_pos rfl]

theorem readBook_after_write (c : Cache) (scope : Scope) (base quote : String) (side : BookSide)
    (now later lifetime : Nat) (b : Book) :
    ((c.writeBook now scope base quote side lifetime b).readBook later scope base quote side).1 =
      .ok (if later < now + lifetime then b else []) := by
  simp only [writeBook, readBook, get_put]
  split
  · exact bookOf_write b
  · rfl

/-- A book comes back from its text as the same data, every coefficient, sign and scale of it, and from
the cache it comes back so until its time is over. -/
theorem readBook_writeBook (c : Cache) (scope : Scope) (base quote : String) (side : BookSide)
    (now later lifetime : Nat) (b : Book) :
    Book.read b.write = some b ∧
      ((c.writeBook now scope base quote side lifetime b).readBook later scope base quote side).1 =
        .ok (if later < now + lifetime then b else []) :=
  ⟨b.read_write, c.readBook_after_write scope base quote side now later lifetime b⟩

theorem WellKept.readBook_ok (h : WellKept scope c) (now : Nat) (base quote : String)
    (side : BookSide) :
    ∃ b : Book, (c.readBook now scope base quote side).1 = .ok b ∧ b.IsSound := by
  have hkey := scope.bookKey_ne_blacklistKey base quote side
  have hnone : (Cache.bookOf (.ok none) : Except BookError Book) = .ok [] := rfl
  simp only [readBook]
  cases hs : c.slots.find? (scope.bookKey base quote side) with
  | none => exact ⟨[], by rw [get_of_none hs, hnone], nofun⟩
  | some slot =>
    obtain ⟨b, expiry, rfl, -, hsound⟩ := h.book _ slot hkey hs
    rw [get_of_text hs]
    split
    · exact ⟨b, bookOf_write b, hsound⟩
    · exact ⟨[], hnone, nofun⟩

end Cache
end QuoteDesk
