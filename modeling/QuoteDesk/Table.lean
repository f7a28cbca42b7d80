/-!
Tables keyed by texts, kept in the order of their keys.

The order of the entries is the order of the texts by code points. Every key occurs once. Main
statements: what a look-up finds after an insertion, and that it finds exactly the entries.
-/
namespace QuoteDesk

structure Table (α : Type) where
  entries : List (String × α)
  sorted : entries.Pairwise (·.1 < ·.1)

namespace Table

variable {α β : Type}

def place (key : String) (value : α) : List (String × α) → List (String × α)
  | [] => [(key, value)]
  | e :: es =>
    if key < e.1 then (key, value) :: e :: es
    else if key = e.1 then (key, value) :: es
    else e :: place key value es

theorem mem_place {key : String} {value : α} {e : String × α} :
    ∀ {es : List (String × α)}, e ∈ place key value es → e = (key, value) ∨ e ∈ es
  | [], h => by simpa [place] using h
  | d :: ds, h => by
    unfold place at h
    split at h
    · simpa using h
    · split at h
      · rcases List.mem_cons.1 h with h | h
        · exact .inl h
        · exact .inr (List.mem_cons_of_mem _ h)
      · rcases List.mem_cons.1 h with h | h
        · exact .inr (h ▸ List.mem_cons_self)
        · exact (mem_place h).imp_right (List.mem_cons_of_mem _)

theorem lt_of_not_lt_of_ne {a b : String} (h : ¬a < b) (hne : a ≠ b) : b < a := by
  rcases String.le_total b a with h1 | h1
  · exact (String.not_le.1 fun h2 => hne (String.le_antisymm h2 h1))
  · exact absurd (String.not_le.1 fun h2 => hne (String.le_antisymm h1 h2)) h

theorem pairwise_place (key : String) (value : α) :
    ∀ {es : List (String × α)}, es.Pairwise (·.1 < ·.1) →
      (place key value es).Pairwise (·.1 < ·.1)
  | [], _ => by simp [place]
  | e :: es, h => by
    obtain ⟨he, hes⟩ := List.pairwise_cons.1 h
    unfold place
    split
    · next hlt =>
      refine List.pairwise_cons.2 ⟨?_, h⟩
      intro d hd
      rcases List.mem_cons.1 hd with rfl | hd
      · exact hlt
      · exact String.lt_trans hlt (he d hd)
    · next hlt =>
      split
      · next heq =>
        exact List.pairwise_cons.2 ⟨fun d hd => heq ▸ he d hd, hes⟩
      · next hne =>
        refine List.pairwise_cons.2 ⟨?_, pairwise_place key value hes⟩
        intro d hd
        rcases mem_place hd with rfl | hd
        · exact lt_of_not_lt_of_ne hlt hne
        · exact he d hd

def empty : Table α := ⟨[], .nil⟩

instance : Inhabited (Table α) := ⟨empty⟩

def insert (t : Table α) (key : String) (value : α) : Table α :=
  ⟨place key value t.entries, pairwise_place key value t.sorted⟩

def erase (t : Table α) (key : String) : Table α :=
  ⟨t.entries.filter (·.1 ≠ key), t.sorted.filter _⟩

/-- A table of entries in any order; of two with one key the later one counts. -/
def ofList (es : List (String × α)) : Table α :=
  es.foldl (fun t e => t.insert e.1 e.2) empty

def lookup (key : String) : List (String × α) → Option α
  | [] => none
  | e :: es => if e.1 = key then some e.2 else lookup key es

def find? (t : Table α) (key : String) : Option α := lookup key t.entries

def contains (t : Table α) (key : String) : Bool := (t.find? key).isSome

def size (t : Table α) : Nat := t.entries.length

def isEmpty (t : Table α) : Bool := t.entries.isEmpty

def mapValues (f : α → β) (t : Table α) : Table β :=
  ⟨t.entries.map fun e => (e.1, f e.2), by
    rw [List.pairwise_map]
    exact t.sorted⟩

theorem lookup_place (key k : String) (value : α) :
    ∀ es : List (String × α),
      lookup k (place key value es) = if key = k then some value else lookup k es
  | [] => by simp [place, lookup]
  | e :: es => by
    unfold place
    split
    · rfl
    · split
      · next heq =>
        by_cases h : key = k <;> simp [lookup, heq ▸ h, h]
      · next hne =>
        simp only [lookup, lookup_place key k value es]
        by_cases h : e.1 = k
        · by_cases h' : key = k
          · exact absurd (h'.trans h.symm) hne
          · simp [h, h']
        · simp [h]

theorem find?_empty (key : String) : (empty : Table α).find? key = none := rfl

theorem find?_insert (t : Table α) (key k : String) (value : α) :
    (t.insert key value).find? k = if key = k then some value else t.find? k :=
  lookup_place key k value t.entries

theorem find?_erase (t : Table α) (key k : String) :
    (t.erase key).find? k = if key = k then none else t.find? k := by
  have h : ∀ es : List (String × α),
      lookup k (es.filter (·.1 ≠ key)) = if key = k then none else lookup k es := by
    intro es
    induction es with
    | nil => simp [lookup]
    | cons e es ih =>
      by_cases he : e.1 = key
      · rw [List.filter_cons_of_neg (by simpa using he), ih]
        by_cases hk : key = k
        · simp [hk]
        · have hek : e.1 ≠ k := fun h => hk (he.symm.trans h)
          simp [hk, lookup, hek]
      · rw [List.filter_cons_of_pos (by simpa using he)]
        by_cases hek : e.1 = k
        · have hk : key ≠ k := fun h => he (hek.trans h.symm)
          simp [hek, hk, lookup]
        · simpa [hek, lookup] using ih
  exact h t.entries

theorem mem_of_lookup {key : String} {value : α} :
    ∀ {es : List (String × α)}, lookup key es = some value → (key, value) ∈ es
  | [], h => by simp [lookup] at h
  | e :: es, h => by
    unfold lookup at h
    split at h
    · next heq =>
      have : e = (key, value) := by
        cases e
        simp_all
      exact this ▸ List.mem_cons_self
    · exact List.mem_cons_of_mem _ (mem_of_lookup h)

theorem lookup_of_mem {key : String} {value : α} :
    ∀ {es : List (String × α)}, es.Pairwise (·.1 < ·.1) → (key, value) ∈ es →
      lookup key es = some value
  | [], _, h => by simp at h
  | e :: es, hs, h => by
    obtain ⟨he, hes⟩ := List.pairwise_cons.1 hs
    rcases List.mem_cons.1 h with rfl | h
    · simp [lookup]
    · have hlt := he _ h
      have hne : e.1 ≠ key := fun heq => String.lt_irrefl key (heq ▸ hlt)
      simp [lookup, hne, lookup_of_mem hes h]

theorem find?_eq_some_iff {t : Table α} {key : String} {value : α} :
    t.find? key = some value ↔ (key, value) ∈ t.entries :=
  ⟨mem_of_lookup, lookup_of_mem t.sorted⟩

theorem nodup_keys (t : Table α) : (t.entries.map (·.1)).Nodup := by
  rw [List.nodup_iff_pairwise_ne, List.pairwise_map]
  refine t.sorted.imp fun {e e'} hlt heq => ?_
  rw [heq] at hlt
  exact String.lt_irrefl e'.1 hlt

theorem find?_mapValues (f : α → β) (t : Table α) (key : String) :
    (t.mapValues f).find? key = (t.find? key).map f := by
  have h : ∀ es : List (String × α),
      lookup key (es.map fun e => (e.1, f e.2)) = (lookup key es).map f := by
    intro es
    induction es with
    | nil => rfl
    | cons e es ih =>
      simp only [List.map_cons, lookup]
      split
      · rfl
      · exact ih
  exact h t.entries

end Table
end QuoteDesk
