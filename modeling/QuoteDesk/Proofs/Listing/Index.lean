import QuoteDesk.Directory
import Mathlib.Data.List.Nodup
/-!
The index of tokens by address. It is built from the tokens under their symbols, taken in some order,
and of two tokens at one address the later one stays. Main statement: whatever the order, symbol and
address lead to the same token exactly if every token stands under its own symbol and no two of them
share an address.
-/
namespace QuoteDesk

namespace Table

variable {α : Type} {es : List (String × α)} {t : Table α} {key : String} {value : α}

theorem mem_or_of_find?_foldl
    (h : (es.foldl (fun t e => t.insert e.1 e.2) t).find? key = some value) :
    (key, value) ∈ es ∨ t.find? key = some value := by
  induction es generalizing t with
  | nil => exact .inr h
  | cons e es ih =>
    rcases ih h with hmem | hfind
    · exact .inl (List.mem_cons_of_mem e hmem)
    · rw [find?_insert] at hfind
      split at hfind
      · next hkey =>
        obtain rfl := hkey
        obtain rfl := Option.some.inj hfind
        exact .inl List.mem_cons_self
      · exact .inr hfind

theorem find?_foldl_of_unique (hunique : ∀ other, (key, other) ∈ es → other = value)
    (h : (key, value) ∈ es ∨ t.find? key = some value) :
    (es.foldl (fun t e => t.insert e.1 e.2) t).find? key = some value := by
  induction es generalizing t with
  | nil => exact h.resolve_left List.not_mem_nil
  | cons e es ih =>
    refine ih (fun other hother => hunique other (List.mem_cons_of_mem e hother)) ?_
    by_cases hkey : e.1 = key
    · have hvalue : e.2 = value := hunique e.2 (hkey ▸ List.mem_cons_self)
      exact .inr (by rw [find?_insert, if_pos hkey, hvalue])
    · rcases h with hmem | hfind
      · rcases List.mem_cons.mp hmem with rfl | hmem
        · exact absurd rfl hkey
        · exact .inl hmem
      · exact .inr (by rw [find?_insert, if_neg hkey, hfind])

theorem length_place_of_none {es : List (String × α)} (h : lookup key es = none) :
    (place key value es).length = es.length + 1 := by
  induction es with
  | nil => rfl
  | cons e es ih =>
    unfold lookup at h
    split at h
    · cases h
    · next hkey =>
      unfold place
      split
      · rfl
      · rw [if_neg (Ne.symm hkey), List.length_cons, ih h, List.length_cons]

theorem size_foldl (hnodup : (es.map (·.1)).Nodup) (hfree : ∀ e ∈ es, t.find? e.1 = none) :
    (es.foldl (fun t e => t.insert e.1 e.2) t).size = t.size + es.length := by
  induction es generalizing t with
  | nil => rfl
  | cons e es ih =>
    obtain ⟨hfirst, hrest⟩ := List.nodup_cons.mp hnodup
    have hsize : (t.insert e.1 e.2).size = t.size + 1 :=
      length_place_of_none (hfree e List.mem_cons_self)
    rw [List.foldl_cons, ih hrest, hsize, List.length_cons]
    · omega
    · intro e' he'
      have hne : e.1 ≠ e'.1 := fun heq => hfirst (List.mem_map.mpr ⟨e', he', heq.symm⟩)
      rw [find?_insert, if_neg hne]
      exact hfree e' (List.mem_cons_of_mem e he')

theorem mem_of_find?_ofList (h : (ofList es).find? key = some value) : (key, value) ∈ es :=
  (mem_or_of_find?_foldl h).resolve_right nofun

theorem find?_ofList_of_mem (h : (key, value) ∈ es)
    (hunique : ∀ other, (key, other) ∈ es → other = value) :
    (ofList es).find? key = some value :=
  find?_foldl_of_unique hunique (.inl h)

theorem size_ofList (hnodup : (es.map (·.1)).Nodup) : (ofList es).size = es.length := by
  rw [ofList, size_foldl hnodup fun _ _ => rfl]
  exact Nat.zero_add _

end Table

namespace TokenDirectory

def addressIndex (order : List (String × Token)) : Table Token :=
  Table.ofList (order.map fun e => (e.2.address, e.2))

variable {tokens : Table Token} {order : List (String × Token)}

/-- Every token stands under its symbol and is found at its address in any spelling, and both indexes
are of one size. -/
structure Agrees (tokens addresses : Table Token) : Prop where
  symbol : ∀ key t, tokens.find? key = some t → t.symbol = key
  address : ∀ key t spelling, tokens.find? key = some t → Text.normalize spelling = t.address →
    addresses.find? (Text.normalize spelling) = some t
  size : addresses.size = tokens.size

def HasOwnAddresses (tokens : Table Token) : Prop :=
  ∀ e ∈ tokens.entries, ∀ e' ∈ tokens.entries, e.2.address = e'.2.address → e = e'

theorem find?_addressIndex (hperm : order.Perm tokens.entries) (hown : HasOwnAddresses tokens)
    {e : String × Token} (he : e ∈ tokens.entries) :
    (addressIndex order).find? e.2.address = some e.2 := by
  refine Table.find?_ofList_of_mem ?_ fun other hother => ?_
  · exact List.mem_map.mpr ⟨e, hperm.mem_iff.mpr he, rfl⟩
  · obtain ⟨e', he', heq⟩ := List.mem_map.mp hother
    obtain ⟨haddress, rfl⟩ := Prod.mk.inj heq
    rw [hown e' (hperm.mem_iff.mp he') e he haddress]

theorem exists_of_find?_addressIndex (hperm : order.Perm tokens.entries) {address : String}
    {t : Token} (h : (addressIndex order).find? address = some t) :
    t.address = address ∧ ∃ key, tokens.find? key = some t := by
  obtain ⟨e, he, heq⟩ := List.mem_map.mp (Table.mem_of_find?_ofList h)
  obtain ⟨haddress, rfl⟩ := Prod.mk.inj heq
  exact ⟨haddress, e.1, Table.find?_eq_some_iff.mpr (hperm.mem_iff.mp he)⟩

/-- A token that is found by address stands under some symbol, and its own address is the normal form of
the one that it was asked for by. -/
theorem exists_of_ofAddress? {d : TokenDirectory} {address : String} {t : Token}
    (h : d.ofAddress? address = some t) :
    t.address = Text.normalize address ∧ ∃ symbol, d.ofSymbol? symbol = some t := by
  have hindex : (addressIndex d.tokens.entries).find? (Text.normalize address) = some t := by
    rw [addressIndex, ← d.addresses_eq]
    exact h
  exact exists_of_find?_addressIndex (.refl _) hindex

theorem size_addressIndex (hperm : order.Perm tokens.entries) (hown : HasOwnAddresses tokens) :
    (addressIndex order).size = tokens.size := by
  have hnodup : tokens.entries.Nodup := .of_map _ tokens.nodup_keys
  have hkeys : ((order.map fun e => (e.2.address, e.2)).map (·.1)).Nodup := by
    rw [List.map_map]
    refine List.Nodup.map_on (fun e he e' he' heq => ?_) (hperm.nodup_iff.mpr hnodup)
    exact hown e (hperm.mem_iff.mp he) e' (hperm.mem_iff.mp he') heq
  rw [addressIndex, Table.size_ofList hkeys, List.length_map, hperm.length_eq]
  rfl

/-- Both indexes agree, whatever the order, exactly if tokens stand under their symbols and have
addresses of their own. -/
theorem agrees_addressIndex_iff (hperm : order.Perm tokens.entries)
    (hnormal : ∀ key t, tokens.find? key = some t → Text.normalize t.address = t.address) :
    Agrees tokens (addressIndex order) ↔
      (∀ key t, tokens.find? key = some t → t.symbol = key) ∧ HasOwnAddresses tokens := by
  constructor
  · intro h
    refine ⟨h.symbol, fun e he e' he' haddress => ?_⟩
    have hfind := Table.find?_eq_some_iff.mpr he
    have hfind' := Table.find?_eq_some_iff.mpr he'
    have hat := h.address e.1 e.2 e.2.address hfind (hnormal e.1 e.2 hfind)
    have hat' := h.address e'.1 e'.2 e'.2.address hfind' (hnormal e'.1 e'.2 hfind')
    rw [← haddress] at hat'
    have htoken : e.2 = e'.2 := Option.some.inj (hat.symm.trans hat')
    have hkey : e.1 = e'.1 := by
      rw [← h.symbol e.1 e.2 hfind, ← h.symbol e'.1 e'.2 hfind', htoken]
    exact Prod.ext hkey htoken
  · rintro ⟨hsymbol, hown⟩
    refine ⟨hsymbol, fun key t spelling ht hspelling => ?_, size_addressIndex hperm hown⟩
    rw [hspelling]
    exact find?_addressIndex hperm hown (Table.find?_eq_some_iff.mp ht)

end TokenDirectory
end QuoteDesk
