import QuoteDesk.Cache.Books
import QuoteDesk.Proofs.Cache.Keys
/-!
The deny set in the cache. Neither books that are written and read under their own keys nor addresses
that are added ever make the set a text or give it an end.
-/
namespace QuoteDesk

theorem Table.mem_keys_iff {α : Type} {t : Table α} {key : String} :
    key ∈ t.entries.map (·.1) ↔ ∃ value, t.find? key = some value := by
  simp only [List.mem_map, Table.find?_eq_some_iff, Prod.exists, exists_and_right, exists_eq_right]

theorem Table.mem_keys_insert {α : Type} (t : Table α) (key k : String) (value : α) :
    k ∈ (t.insert key value).entries.map (·.1) ↔ k = key ∨ k ∈ t.entries.map (·.1) := by
  rw [mem_keys_iff, mem_keys_iff, find?_insert]
  by_cases hk : key = k
  · simp [hk]
  · simp [hk, Ne.symm hk]

namespace Cache

def HoldsNoText (c : Cache) (key : String) : Prop :=
  ∀ s, c.slots.find? key = some s → ∃ set, s.content = .members set

def KeepsSet (c : Cache) (key : String) : Prop :=
  ∀ s, c.slots.find? key = some s → ∃ set, s = ⟨.members set, none⟩

def memberNames (c : Cache) (key : String) : List String :=
  match c.slots.find? key with
  | some ⟨.members set, _⟩ => set.entries.map (·.1)
  | _ => []

variable {c : Cache} {key : String}

theorem find?_put (now lifetime : Nat) (value : String) {k : String} (hk : k ≠ key) :
    (c.put now k lifetime value).slots.find? key = c.slots.find? key := by
  simp only [put, Table.find?_insert, if_neg hk]

theorem find?_add (c : Cache) (now : Nat) {key k : String} (hk : k ≠ key) (member : String) :
    (c.add now key member).2.slots.find? k = c.slots.find? k := by
  unfold add
  split <;> simp only [Table.find?_insert, if_neg (Ne.symm hk)]

theorem find?_get (now : Nat) {k : String} (hk : k ≠ key) :
    (c.get now k).2.slots.find? key = c.slots.find? key := by
  simp only [get]
  cases c.look now k with
  | absent => rfl
  | live content => rfl
  | expired => simp only [afterSight, drop, Table.find?_erase, if_neg hk]

theorem HoldsNoText.of_find?_eq {c' : Cache} (h : HoldsNoText c key)
    (heq : c'.slots.find? key = c.slots.find? key) : HoldsNoText c' key := by
  intro s hs
  exact h s (heq ▸ hs)

/-- A set that can be read leaves no text behind, not even one past its end. -/
theorem holdsNoText_members {now : Nat} {set : Table Unit}
    (h : (c.members now key).1 = .ok set) : HoldsNoText (c.members now key).2 key := by
  simp only [members] at h ⊢
  intro s hs
  cases hl : c.look now key with
  | absent =>
    rw [hl] at hs
    simp only [look] at hl
    split at hl
    · next hnone =>
      simp only [afterSight, hnone] at hs
      cases hs
    · split at hl <;> cases hl
  | expired =>
    rw [hl] at hs
    simp only [afterSight, drop, Table.find?_erase, if_true] at hs
    cases hs
  | live content =>
    rw [hl] at h hs
    cases content with
    | text value => cases h
    | members kept =>
      simp only [afterSight] at hs
      simp only [look, hs] at hl
      split at hl
      · exact ⟨kept, Sight.live.inj hl⟩
      · cases hl

theorem HoldsNoText.add (h : HoldsNoText c key) (now : Nat) (member : String) :
    (c.add now key member).1 = .ok () ∧ HoldsNoText (c.add now key member).2 key := by
  have hinsert : ∀ set expiry, HoldsNoText
      ⟨c.slots.insert key ⟨.members set, expiry⟩⟩ key := by
    intro set expiry s hs
    rw [Table.find?_insert, if_pos rfl] at hs
    exact ⟨set, (congrArg Slot.content (Option.some.inj hs)).symm⟩
  unfold Cache.add
  split
  · next value hl =>
    simp only [look] at hl
    split at hl
    · cases hl
    · next s hs =>
      split at hl
      · obtain ⟨set, hset⟩ := h s hs
        rw [hset] at hl
        cases hl
      · cases hl
  · exact ⟨rfl, hinsert _ _⟩
  · exact ⟨rfl, hinsert _ _⟩

theorem KeepsSet.of_find?_eq {c' : Cache} (h : KeepsSet c key)
    (heq : c'.slots.find? key = c.slots.find? key) : KeepsSet c' key := by
  intro s hs
  exact h s (heq ▸ hs)

theorem memberNames_of_find?_eq {c' : Cache} (heq : c'.slots.find? key = c.slots.find? key) :
    c'.memberNames key = c.memberNames key := by
  simp only [memberNames, heq]

theorem keepsSet_empty (key : String) : KeepsSet .empty key := by
  intro s hs
  cases hs

theorem KeepsSet.members (h : KeepsSet c key) (now : Nat) :
    ∃ set : Table Unit, c.members now key = (.ok set, c) ∧
      set.entries.map (·.1) = c.memberNames key := by
  cases hs : c.slots.find? key with
  | none =>
    refine ⟨.empty, ?_, by simp [memberNames, hs, Table.empty]⟩
    simp [Cache.members, look, hs, Sight.members?, afterSight]
  | some s =>
    obtain ⟨set, rfl⟩ := h s hs
    refine ⟨set, ?_, by simp [memberNames, hs]⟩
    simp [Cache.members, look, hs, Slot.isLive, Sight.members?, afterSight]

theorem KeepsSet.add (h : KeepsSet c key) (now : Nat) (member : String) :
    ∃ c', c.add now key member = (.ok (), c') ∧ KeepsSet c' key ∧
      ∀ name, name ∈ c'.memberNames key ↔ name = member ∨ name ∈ c.memberNames key := by
  have hinsert : ∀ set : Table Unit, set.entries.map (·.1) = c.memberNames key →
      c.add now key member =
        (.ok (), ⟨c.slots.insert key ⟨.members (set.insert member ()), none⟩⟩) →
      ∃ c', c.add now key member = (.ok (), c') ∧ KeepsSet c' key ∧
        ∀ name, name ∈ c'.memberNames key ↔ name = member ∨ name ∈ c.memberNames key := by
    intro set hset hadd
    refine ⟨_, hadd, ?_, ?_⟩
    · intro s hs
      rw [Table.find?_insert, if_pos rfl] at hs
      exact ⟨_, (Option.some.inj hs).symm⟩
    · intro name
      rw [← hset]
      simp only [memberNames, Table.find?_insert, if_true]
      exact Table.mem_keys_insert set member name ()
  cases hs : c.slots.find? key with
  | none =>
    refine hinsert .empty (by simp [memberNames, hs, Table.empty]) ?_
    simp [Cache.add, look, hs]
  | some s =>
    obtain ⟨set, rfl⟩ := h s hs
    refine hinsert set (by simp [memberNames, hs]) ?_
    simp [Cache.add, look, hs, Slot.isLive]

end Cache
end QuoteDesk
